import EditorCore.Editor.Call
import EditorCore.Proofs.Refusal
import EditorCore.Proofs.TabIndices

/-!
Contract: what can be done with open documents.

Owns:
- `TabCall`, the calls of a workspace as data, with what they answer, and `step`,
  which carries one out;
- `TabCall.Refused`, why a document is not opened;
- `Workspace.Goes`, all that a call can do to the tabs and to which of them is
  active, and that no call does anything else where tabs are orderly;
- that every call leaves tabs orderly.

Does not own: runs.
-/

namespace EditorCore

variable {κ : Type}

/-! ## Calls -/

/-- A call of a workspace. -/
inductive TabCall (κ : Type) where
  | openText (name text : String)
  | openFile (load : String → Except EditError String) (path : String)
  | activate (name : String)
  | close (name : String)
  /-- A call of the editor in the active tab. -/
  | edit (call : Call κ)

/-- What a call of a workspace reports. -/
inductive TabAnswer where
  | opened (result : Except EditError Unit)
  /-- Whether there was a tab of the name. -/
  | found (effect : Bool)
  /-- What the editor of the active tab reported, if there was one. -/
  | edited (answer : Option Answer)

/-- The name that a call opens a document under. -/
def TabCall.opens : TabCall κ → Option String
  | openText name _ => some name
  | openFile _ path => some (documentName path)
  | _ => none

section

variable [Coordinate κ]

/-- The tab that opening makes where no tab has its name. -/
inductive Tab.MadeBy (settings : Settings κ) (metrics : GlyphMetrics κ) :
    TabCall κ → Tab κ → Prop
  | text {name text : String} {editor : Editor κ}
      (reads : Editor.withText settings metrics text = .ok (.ok editor)) :
      MadeBy settings metrics (.openText name text) ⟨name, none, editor⟩
  | file {load : String → Except EditError String} {path text : String} {editor : Editor κ}
      (loads : load path = .ok text)
      (reads : Editor.withText settings metrics text = .ok (.ok editor)) :
      MadeBy settings metrics (.openFile load path) ⟨documentName path, some path, editor⟩

/-- Why a document is not opened: its source does not give a text, or the text is
longer than the capacity. -/
inductive TabCall.Refused (settings : Settings κ) (metrics : GlyphMetrics κ) :
    TabCall κ → EditError → Prop
  | source {load : String → Except EditError String} {path : String} {refusal : EditError}
      (fails : load path = .error refusal) : Refused settings metrics (.openFile load path) refusal
  | text {name text : String} {required : Nat} (full : settings.capacity < required)
      (refuses : Editor.withText settings metrics text =
        .ok (.error (.capacityExceeded required settings.capacity))) :
      Refused settings metrics (.openText name text)
        (.capacityExceeded required settings.capacity)
  | file {load : String → Except EditError String} {path text : String} {required : Nat}
      (loads : load path = .ok text) (full : settings.capacity < required)
      (refuses : Editor.withText settings metrics text =
        .ok (.error (.capacityExceeded required settings.capacity))) :
      Refused settings metrics (.openFile load path)
        (.capacityExceeded required settings.capacity)

end

/-! ## Workspaces -/

namespace Workspace

variable {workspace next : Workspace κ} {name : String} {index : Nat}

/-! ## Steps -/

variable [Coordinate κ]

def step (workspace : Workspace κ) : TabCall κ → Checked (Workspace κ × TabAnswer)
  | .openText name text => do
      let (next, result) ← workspace.openText name none text
      return (next, .opened result)
  | .openFile load path => do
      let (next, result) ← workspace.openFile load path
      return (next, .opened result)
  | .activate name => .ok ((workspace.activate name).1, .found (workspace.activate name).2)
  | .close name => .ok ((workspace.close name).1, .found (workspace.close name).2)
  | .edit call =>
      match workspace.active? with
      | none => .ok (workspace, .edited none)
      | some tab => do
          let (editor, answer) ← tab.editor.step call
          return (workspace.withEditor editor, .edited (some answer))

/-- All that a call can do, and when. -/
inductive Goes (workspace : Workspace κ) : TabCall κ → Workspace κ → TabAnswer → Prop
  /-- A document that its source does not give, or that is too long, leaves everything
  as it was. -/
  | refused {call : TabCall κ} {name : String} {refusal : EditError}
      (opens : call.opens = some name) (absent : name ∉ workspace.names)
      (fails : call.Refused workspace.settings workspace.metrics refusal) :
      Goes workspace call workspace (.opened (.error refusal))
  /-- A name that is open only becomes active. -/
  | reopened {call : TabCall κ} {next : Workspace κ} {tab : Tab κ}
      (opens : call.opens = some tab.name) (found : workspace.tab? tab.name = some tab)
      (setup : next.setup = workspace.setup) (tabs : next.tabs = workspace.tabs)
      (active : next.active? = some tab) : Goes workspace call next (.opened (.ok ()))
  /-- A new tab comes last and becomes active. -/
  | opened {call : TabCall κ} {next : Workspace κ} {tab : Tab κ}
      (opens : call.opens = some tab.name) (absent : tab.name ∉ workspace.names)
      (made : tab.MadeBy workspace.settings workspace.metrics call)
      (setup : next.setup = workspace.setup) (tabs : next.tabs = workspace.tabs ++ [tab])
      (active : next.active? = some tab) : Goes workspace call next (.opened (.ok ()))
  | activated {next : Workspace κ} {tab : Tab κ} (found : workspace.tab? tab.name = some tab)
      (setup : next.setup = workspace.setup) (tabs : next.tabs = workspace.tabs)
      (active : next.active? = some tab) : Goes workspace (.activate tab.name) next (.found true)
  | notActivated {name : String} (absent : name ∉ workspace.names) :
      Goes workspace (.activate name) workspace (.found false)
  /-- Closing a tab that is not active keeps the active one. -/
  | closed {next : Workspace κ} {tab : Tab κ} {before after : List (Tab κ)}
      (place : workspace.tabs = before ++ tab :: after) (other : workspace.active? ≠ some tab)
      (setup : next.setup = workspace.setup) (tabs : next.tabs = before ++ after)
      (active : next.active? = workspace.active?) : Goes workspace (.close tab.name) next (.found true)
  /-- In place of the active tab its left neighbour becomes active, or else the one
  that is now the first. -/
  | closedActive {next : Workspace κ} {tab : Tab κ} {before after : List (Tab κ)}
      (place : workspace.tabs = before ++ tab :: after) (was : workspace.active? = some tab)
      (setup : next.setup = workspace.setup) (tabs : next.tabs = before ++ after)
      (active : next.active? = before.getLast?.or after.head?) :
      Goes workspace (.close tab.name) next (.found true)
  | notClosed {name : String} (absent : name ∉ workspace.names) :
      Goes workspace (.close name) workspace (.found false)
  /-- An edit stays in the active tab, which keeps its name and its path. -/
  | edited {call : Call κ} {next : Workspace κ} {tab : Tab κ} {before after : List (Tab κ)}
      {editor : Editor κ} {answer : Answer} (place : workspace.tabs = before ++ tab :: after)
      (was : workspace.active? = some tab) (steps : tab.editor.step call = .ok (editor, answer))
      (setup : next.setup = workspace.setup)
      (tabs : next.tabs = before ++ { tab with editor } :: after)
      (active : next.active? = some { tab with editor }) :
      Goes workspace (.edit call) next (.edited (some answer))
  | notEdited {call : Call κ} (nothing : workspace.active? = none) :
      Goes workspace (.edit call) workspace (.edited none)

/-- Opening a text goes one of three ways: its name is open, it does not fit, or it gets
a tab. -/
theorem cases_of_openText {path : Option String} {text : String}
    {result : Except EditError Unit}
    (opens : workspace.openText name path text = .ok (next, result)) :
    (∃ index, workspace.position? name = some index ∧
        next = { workspace with active := some index } ∧ result = .ok ()) ∨
      (∃ refusal, name ∉ workspace.names ∧
        Editor.withText workspace.settings workspace.metrics text = .ok (.error refusal) ∧
        next = workspace ∧ result = .error refusal) ∨
      ∃ editor, name ∉ workspace.names ∧
        Editor.withText workspace.settings workspace.metrics text = .ok (.ok editor) ∧
        next = workspace.append ⟨name, path, editor⟩ ∧ result = .ok () := by
  unfold openText at opens
  cases found : workspace.position? name with
  | some index =>
      rw [found] at opens
      obtain ⟨rfl, rfl⟩ := Prod.mk.inj (Except.ok.inj opens)
      exact .inl ⟨index, rfl, rfl, rfl⟩
  | none =>
      rw [found] at opens
      have absent := position?_eq_none_iff.mp found
      obtain ⟨outcome, reads, ends⟩ := exists_of_bind opens
      cases outcome with
      | error refusal =>
          obtain ⟨rfl, rfl⟩ := Prod.mk.inj (Except.ok.inj ends)
          exact .inr (.inl ⟨refusal, absent, reads, rfl, rfl⟩)
      | ok editor =>
          obtain ⟨rfl, rfl⟩ := Prod.mk.inj (Except.ok.inj ends)
          exact .inr (.inr ⟨editor, absent, reads, rfl, rfl⟩)

/-- Opening a file goes as opening its text, unless its name is open or its source
refuses. -/
theorem cases_of_openFile {load : String → Except EditError String} {path : String}
    {result : Except EditError Unit}
    (opens : workspace.openFile load path = .ok (next, result)) :
    (∃ index, workspace.position? (documentName path) = some index ∧
        next = { workspace with active := some index } ∧ result = .ok ()) ∨
      (∃ refusal, documentName path ∉ workspace.names ∧ load path = .error refusal ∧
        next = workspace ∧ result = .error refusal) ∨
      ∃ text, load path = .ok text ∧
        workspace.openText (documentName path) (some path) text = .ok (next, result) := by
  simp only [openFile] at opens
  cases found : workspace.position? (documentName path) with
  | some index =>
      rw [found] at opens
      obtain ⟨rfl, rfl⟩ := Prod.mk.inj (Except.ok.inj opens)
      exact .inl ⟨index, rfl, rfl, rfl⟩
  | none =>
      rw [found] at opens
      cases loads : load path with
      | error refusal =>
          rw [loads] at opens
          obtain ⟨rfl, rfl⟩ := Prod.mk.inj (Except.ok.inj opens)
          exact .inr (.inl ⟨refusal, position?_eq_none_iff.mp found, rfl, rfl, rfl⟩)
      | ok text =>
          rw [loads] at opens
          exact .inr (.inr ⟨text, rfl, opens⟩)

theorem reopened_of_position? {call : TabCall κ} (named : call.opens = some name)
    (found : workspace.position? name = some index) :
    workspace.Goes call { workspace with active := some index } (.opened (.ok ())) := by
  obtain ⟨tab, before, after, here, rfl, place, rfl⟩ := exists_of_position? found
  exact .reopened named here rfl rfl (getElem?_place place)

/-- Opening a text goes as the call says that opens it. -/
theorem goes_openText {call : TabCall κ} {path : Option String} {text : String}
    {result : Except EditError Unit} (named : call.opens = some name)
    (fails : ∀ {required}, workspace.settings.capacity < required →
      Editor.withText workspace.settings workspace.metrics text =
        .ok (.error (.capacityExceeded required workspace.settings.capacity)) →
      call.Refused workspace.settings workspace.metrics
        (.capacityExceeded required workspace.settings.capacity))
    (makes : ∀ editor, Editor.withText workspace.settings workspace.metrics text =
      .ok (.ok editor) → Tab.MadeBy workspace.settings workspace.metrics call ⟨name, path, editor⟩)
    (opens : workspace.openText name path text = .ok (next, result)) :
    workspace.Goes call next (.opened result) := by
  obtain ⟨index, found, rfl, rfl⟩ | ⟨refusal, absent, reads, rfl, rfl⟩ |
    ⟨editor, absent, reads, rfl, rfl⟩ := cases_of_openText opens
  · exact reopened_of_position? named found
  · obtain ⟨required, full, rfl⟩ := Editor.full_of_withText reads
    exact .refused named absent (fails full reads)
  · exact .opened named absent (makes editor reads) rfl rfl (workspace.active?_append _)

theorem goes_openFile {load : String → Except EditError String} {path : String}
    {result : Except EditError Unit}
    (opens : workspace.openFile load path = .ok (next, result)) :
    workspace.Goes (.openFile load path) next (.opened result) := by
  obtain ⟨index, found, rfl, rfl⟩ | ⟨refusal, absent, fails, rfl, rfl⟩ | ⟨text, loads, opensText⟩ :=
    cases_of_openFile opens
  · exact reopened_of_position? rfl found
  · exact .refused rfl absent (.source fails)
  · exact goes_openText rfl (.file loads) (fun editor reads => .file loads reads) opensText

/-- Activating goes as the first tab of the name says. -/
theorem goes_activate (workspace : Workspace κ) (name : String) :
    workspace.Goes (.activate name) (workspace.activate name).1
      (.found (workspace.activate name).2) := by
  unfold activate
  cases found : workspace.position? name with
  | none => exact .notActivated (position?_eq_none_iff.mp found)
  | some index =>
      obtain ⟨tab, before, after, here, rfl, place, rfl⟩ := exists_of_position? found
      exact .activated here rfl rfl (getElem?_place place)

/-- Closing renumbers the active tab, so that it stays active, or leaves its place to
its neighbour. -/
theorem goes_close (orderly : workspace.Orderly) (name : String) :
    workspace.Goes (.close name) (workspace.close name).1 (.found (workspace.close name).2) := by
  cases found : workspace.position? name with
  | none =>
      rw [close, found]
      exact .notClosed (position?_eq_none_iff.mp found)
  | some index =>
      obtain ⟨tab, before, after, here, rfl, place, rfl⟩ := exists_of_position? found
      rw [close_eq workspace found place]
      obtain ⟨active, was⟩ : ∃ active, workspace.active = some active := by
        apply Option.ne_none_iff_exists'.mp
        rw [Ne, orderly.active_none, place]
        simp
      -- With no tab left there is no active one, whatever index it would have.
      have now : (if (before ++ after).isEmpty then none
            else workspace.active.map (renumbered before.length)).bind ((before ++ after)[·]?) =
          (before ++ after)[renumbered before.length active]? := by
        rw [was]
        split
        · rename_i nothing
          rw [List.isEmpty_iff.mp nothing]
          rfl
        · rfl
      by_cases itself : active = before.length
      · subst itself
        have wasTab := (active?_of_active was).trans (getElem?_place place)
        exact .closedActive place wasTab rfl rfl (now.trans getElem?_renumbered_self)
      · refine .closed place ?_ rfl rfl ?_
        · rw [active?_of_active was]
          exact fun same => itself (eq_length_of_getElem? orderly.distinct place same)
        · rw [active?_of_active was, place, ← getElem?_renumbered itself]
          exact now

/-- An edit goes to the active tab. -/
theorem goes_edit {call : Call κ} {answer : TabAnswer}
    (steps : workspace.step (.edit call) = .ok (next, answer)) :
    workspace.Goes (.edit call) next answer := by
  rw [step] at steps
  cases active : workspace.active? with
  | none =>
      rw [active] at steps
      obtain ⟨rfl, rfl⟩ := Prod.mk.inj (Except.ok.inj steps)
      exact .notEdited active
  | some tab =>
      rw [active] at steps
      obtain ⟨⟨editor, answer⟩, edits, ends⟩ := exists_of_bind steps
      obtain ⟨rfl, rfl⟩ := Prod.mk.inj (Except.ok.inj ends)
      obtain ⟨before, after, place, was⟩ := exists_of_active? active
      rw [withEditor_eq place was]
      refine .edited place active edits rfl rfl ?_
      simp [active?, was]

/-- Whatever a call does, it is one of those things. -/
theorem Orderly.goes (orderly : workspace.Orderly) {call : TabCall κ} {answer : TabAnswer}
    (steps : workspace.step call = .ok (next, answer)) : workspace.Goes call next answer := by
  cases call with
  | openText name text =>
      obtain ⟨pair, opens, ends⟩ := exists_of_bind steps
      obtain ⟨rfl, rfl⟩ := Prod.mk.inj (Except.ok.inj ends)
      exact goes_openText rfl .text (fun editor reads => .text reads) opens
  | openFile load path =>
      obtain ⟨pair, opens, ends⟩ := exists_of_bind steps
      obtain ⟨rfl, rfl⟩ := Prod.mk.inj (Except.ok.inj ends)
      exact goes_openFile opens
  | activate name =>
      obtain ⟨rfl, rfl⟩ := Prod.mk.inj (Except.ok.inj steps)
      exact workspace.goes_activate name
  | close name =>
      obtain ⟨rfl, rfl⟩ := Prod.mk.inj (Except.ok.inj steps)
      exact goes_close orderly name
  | edit call => exact goes_edit steps

/-! ## The invariant -/

theorem Orderly.openText (orderly : workspace.Orderly) {path : Option String} {text : String}
    {result : Except EditError Unit}
    (opens : workspace.openText name path text = .ok (next, result)) : next.Orderly := by
  obtain ⟨index, found, rfl, -⟩ | ⟨-, -, -, rfl, -⟩ | ⟨editor, absent, -, rfl, -⟩ :=
    cases_of_openText opens
  · exact orderly.activated found
  · exact orderly
  · exact orderly.append absent

theorem Orderly.openFile (orderly : workspace.Orderly) {load : String → Except EditError String}
    {path : String} {result : Except EditError Unit}
    (opens : workspace.openFile load path = .ok (next, result)) : next.Orderly := by
  obtain ⟨index, found, rfl, -⟩ | ⟨-, -, -, rfl, -⟩ | ⟨text, -, opensText⟩ :=
    cases_of_openFile opens
  · exact orderly.activated found
  · exact orderly
  · exact orderly.openText opensText

/-- Every call leaves names distinct and the active index in range. -/
theorem Orderly.step (orderly : workspace.Orderly) {call : TabCall κ} {answer : TabAnswer}
    (steps : workspace.step call = .ok (next, answer)) : next.Orderly := by
  cases call with
  | openText name text =>
      obtain ⟨pair, opens, ends⟩ := exists_of_bind steps
      obtain ⟨rfl, -⟩ := Prod.mk.inj (Except.ok.inj ends)
      exact orderly.openText opens
  | openFile load path =>
      obtain ⟨pair, opens, ends⟩ := exists_of_bind steps
      obtain ⟨rfl, -⟩ := Prod.mk.inj (Except.ok.inj ends)
      exact orderly.openFile opens
  | activate name =>
      obtain ⟨rfl, -⟩ := Prod.mk.inj (Except.ok.inj steps)
      unfold activate
      split
      · rename_i found
        exact orderly.activated found
      · exact orderly
  | close name =>
      obtain ⟨rfl, -⟩ := Prod.mk.inj (Except.ok.inj steps)
      exact orderly.close name
  | edit call =>
      rw [Workspace.step] at steps
      split at steps
      · obtain ⟨rfl, -⟩ := Prod.mk.inj (Except.ok.inj steps)
        exact orderly
      · obtain ⟨pair, -, ends⟩ := exists_of_bind steps
        obtain ⟨rfl, -⟩ := Prod.mk.inj (Except.ok.inj ends)
        exact orderly.withEditor pair.1

end Workspace

end EditorCore
