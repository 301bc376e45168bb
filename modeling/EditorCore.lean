import EditorCore.CaretSnapshot
import EditorCore.Editor.Call
import EditorCore.Main
import EditorCore.Proofs.Flow
import EditorCore.Proofs.Ruling
import EditorCore.Proofs.Draft
import EditorCore.Proofs.Representation
import EditorCore.Proofs.Relexing
import EditorCore.Proofs.Upkeep
import EditorCore.Proofs.LineTable
import EditorCore.Proofs.Splice
import EditorCore.Proofs.Editing
import EditorCore.Proofs.Navigation
import EditorCore.Proofs.Reachable
import EditorCore.Proofs.Consistency
import EditorCore.Proofs.Refusal
import EditorCore.Proofs.UpToDate
import EditorCore.Proofs.PlainText
import EditorCore.Proofs.Breaks
import EditorCore.Proofs.Saving
import EditorCore.Proofs.Typing
import EditorCore.Proofs.Request
import EditorCore.Proofs.Transition
import EditorCore.Proofs.TypedBreaks
import EditorCore.Proofs.Safety
import EditorCore.Proofs.Manuscript
import EditorCore.Proofs.Notifications
import EditorCore.Proofs.Presentation
import EditorCore.Proofs.TabIndices
import EditorCore.Proofs.Tabs
import EditorCore.Proofs.TabRuns
import EditorCore.Proofs.TabOrigins
import EditorCore.Proofs.Sessions
import EditorCore.Proofs.CommandRuns
import EditorCore.Proofs.CharacterClasses
import EditorCore.Proofs.Runs
import EditorCore.Proofs.MaximalMunch
import EditorCore.Proofs.Courses
import EditorCore.Proofs.Blinking
import EditorCore.Proofs.Positions
import EditorCore.Proofs.StickyColumn
import EditorCore.Proofs.WordMotion
import EditorCore.Proofs.Acceptance
import EditorCore.Proofs.CharacterMotion
import EditorCore.Proofs.AutoIndent
import EditorCore.Proofs.Undoing
import EditorCore.Proofs.Pasting
import EditorCore.Proofs.Outdenting
import EditorCore.Proofs.Gauging
import EditorCore.Proofs.ExactPage
import EditorCore.Proofs.CaretX
import EditorCore.Proofs.HitTesting
import EditorCore.Proofs.Drawing
import EditorCore.Proofs.OffsetLookup
import EditorCore.Proofs.Settling
import EditorCore.Proofs.SingleLine
import EditorCore.Proofs.SharedMetrics
import EditorCore.Proofs.SplitMerge
import EditorCore.Proofs.Cutting
import EditorCore.Proofs.BoundedText
