import EditorCore.Proofs.Reachable
import EditorCore.Proofs.TabRuns

/-!
Contract: where the documents of a workspace come from.

Owns:
- `Tab.Stems`, a tab made by a call and only edited since, and `Tab.BackedBy`, a tab
  whose document was loaded from its path;
- that every tab of every run stems from one of its calls;
- what opening a file makes active.

Does not own: what is at a path.
-/

namespace EditorCore

variable {κ : Type} [Coordinate κ]

theorem Editor.run_nil (editor : Editor κ) : editor.run [] = .ok (editor, []) := rfl

/-! ## Tabs -/

namespace Tab

variable {settings : Settings κ} {metrics : GlyphMetrics κ} {calls : List (TabCall κ)}
variable {tab : Tab κ} {path : String}

/-- A tab was made by one of some calls and has only been edited since. -/
inductive Stems (settings : Settings κ) (metrics : GlyphMetrics κ) (calls : List (TabCall κ)) :
    Tab κ → Prop
  | edited {call : TabCall κ} {origin : Tab κ} {edits : List (Call κ)} {answers : List Answer}
      {editor : Editor κ} (asked : call ∈ calls) (made : origin.MadeBy settings metrics call)
      (runs : origin.editor.run edits = .ok (editor, answers)) :
      Stems settings metrics calls { origin with editor }

theorem Stems.of_made {call : TabCall κ} (asked : call ∈ calls)
    (made : tab.MadeBy settings metrics call) : tab.Stems settings metrics calls := by
  exact Stems.edited asked made tab.editor.run_nil

/-- A tab that has been edited stems from where it stemmed before. -/
theorem Stems.step {call : Call κ} {editor : Editor κ} {answer : Answer}
    (stems : tab.Stems settings metrics calls) (steps : tab.editor.step call = .ok (editor, answer)) :
    ({ tab with editor } : Tab κ).Stems settings metrics calls := by
  cases stems with
  | @edited _ origin _ _ _ asked made runs =>
      have once : origin.editor.run _ = .ok (editor, _ ++ [answer]) :=
        Editor.run_append runs (Editor.run_cons steps (Editor.run_nil editor))
      have stays : ({ origin with editor } : Tab κ).Stems settings metrics calls :=
        .edited asked made once
      exact stays

end Tab

/-! ## Workspaces -/

namespace Workspace

variable {settings : Settings κ} {metrics : GlyphMetrics κ} {calls : List (TabCall κ)}
variable {workspace next last : Workspace κ} {call : TabCall κ} {answer : TabAnswer}
variable {answers : List TabAnswer}

/-- All tabs stem from calls, and new ones are made as at first. -/
structure Rooted (settings : Settings κ) (metrics : GlyphMetrics κ) (calls : List (TabCall κ))
    (workspace : Workspace κ) : Prop where
  setup : workspace.setup = (settings, metrics)
  stems : ∀ tab ∈ workspace.tabs, tab.Stems settings metrics calls

/-- The step lemma: a call leaves all tabs with their origins. -/
theorem Goes.rooted (goes : workspace.Goes call next answer) (asked : call ∈ calls)
    (rooted : workspace.Rooted settings metrics calls) : next.Rooted settings metrics calls := by
  obtain ⟨was, stems⟩ := rooted
  cases goes with
  | refused => exact ⟨was, stems⟩
  | reopened opens found setup tabs => exact ⟨setup.trans was, tabs ▸ stems⟩
  | opened opens absent made setup tabs =>
      refine ⟨setup.trans was, ?_⟩
      obtain ⟨rfl, rfl⟩ := Prod.mk.inj was
      intro tab member
      rw [tabs, List.mem_append, List.mem_singleton] at member
      obtain old | rfl := member
      · exact stems tab old
      · exact .of_made asked made
  | activated found setup tabs => exact ⟨setup.trans was, tabs ▸ stems⟩
  | notActivated => exact ⟨was, stems⟩
  | closed place other setup tabs =>
      refine ⟨setup.trans was, ?_⟩
      intro tab member
      apply stems tab
      rw [place]
      rw [tabs] at member
      simpa using Or.imp id Or.inr (List.mem_append.mp member)
  | closedActive place active setup tabs =>
      refine ⟨setup.trans was, ?_⟩
      intro tab member
      apply stems tab
      rw [place]
      rw [tabs] at member
      simpa using Or.imp id Or.inr (List.mem_append.mp member)
  | notClosed => exact ⟨was, stems⟩
  | edited place active steps setup tabs =>
      refine ⟨setup.trans was, ?_⟩
      rw [place] at stems
      intro tab member
      rw [tabs, List.mem_append, List.mem_cons] at member
      obtain left | rfl | right := member
      · exact stems tab (by simp [left])
      · exact (stems _ (by simp)).step steps
      · exact stems tab (by simp [right])
  | notEdited => exact ⟨was, stems⟩

/-- Every tab of a run stems from one of its calls. -/
theorem Rooted.run {later : List (TabCall κ)} (rooted : workspace.Rooted settings metrics calls)
    (orderly : workspace.Orderly) (asked : later ⊆ calls)
    (runs : workspace.run later = .ok (last, answers)) : last.Rooted settings metrics calls := by
  -- All the calls stay fixed in the induction, which is over those still to come.
  induction later generalizing workspace answers with
  | nil =>
      obtain ⟨rfl, -⟩ := Prod.mk.inj (Except.ok.inj runs)
      exact rooted
  | cons call later inductionHypothesis =>
      obtain ⟨next, answer, rest, steps, goesOn, -⟩ := exists_of_run_cons runs
      obtain ⟨first, others⟩ := List.cons_subset.mp asked
      have goes := orderly.goes steps
      exact inductionHypothesis (goes.rooted first rooted) (orderly.step steps) others goesOn

/-- What opening a file comes to.  A new tab is made from what is at the path now;
a tab of the file's name that is there already only becomes active, and then the
active tab has another path if that one had. -/
structure OpensFile (workspace : Workspace κ) (load : String → Except EditError String)
    (path : String) (next : Workspace κ) : Prop where
  named : ∃ tab, next.active? = some tab ∧ tab.name = documentName path
  fresh : documentName path ∉ workspace.names → ∃ tab text,
    load path = .ok text ∧
      Editor.withText workspace.settings workspace.metrics text = .ok (.ok tab.editor) ∧
      tab.path = some path ∧ next.tabs = workspace.tabs ++ [tab] ∧ next.active? = some tab
  known : documentName path ∈ workspace.names →
    next.tabs = workspace.tabs ∧ next.active? = workspace.tab? (documentName path)
  backed : next.active?.bind Tab.path = some path ↔
    ∀ tab, workspace.tab? (documentName path) = some tab → tab.path = some path

/-- Opening a file goes one of two ways: its name is known, or it gets a new tab. -/
theorem opensFile {load : String → Except EditError String} {path : String}
    (opens : workspace.openFile load path = .ok (next, .ok ())) :
    workspace.OpensFile load path next := by
  cases goes_openFile opens with
  | reopened opened found setup tabs active =>
      have same : documentName path = _ := Option.some.inj opened
      rw [← same] at found
      exact {
        named := ⟨_, active, same.symm⟩
        fresh := fun absent => absurd (name_mem_of_tab? found) absent
        known := fun _ => ⟨tabs, active.trans found.symm⟩
        backed := by simp [active, found] }
  | opened opened absent made setup tabs active =>
      cases made with
      | file loads reads =>
          have missing : workspace.tab? (documentName path) = none :=
            Option.eq_none_iff_forall_ne_some.mpr fun _ found => absent (name_mem_of_tab? found)
          exact {
            named := ⟨_, active, rfl⟩
            fresh := fun _ => ⟨_, _, loads, reads, rfl, tabs, active⟩
            known := fun present => absurd present absent
            backed := by simp [active, missing] }

end Workspace

end EditorCore
