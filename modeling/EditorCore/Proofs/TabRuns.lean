import EditorCore.Proofs.Tabs

/-!
Contract: the tabs of a workspace keep their order and stay apart.

Owns:
- `Workspace.run`, calls carried out in order;
- `TabCall.names`, the names open after a call, in the order they were opened in;
- that a call leaves all tabs but one alone, and what holds after every run.

Does not own: what a single call does.
-/

namespace EditorCore

variable {κ : Type}

/-! ## Names -/

namespace TabCall

/-- The names open after a call.  A name that was not open comes last. -/
def names (before : List String) (call : TabCall κ) : TabAnswer → List String
  | .opened (.ok ()) =>
      match call.opens with
      | some name => if name ∈ before then before else before ++ [name]
      | none => before
  | .found _ =>
      match call with
      | .close name => before.erase name
      | _ => before
  | _ => before

/-- The names open after some calls. -/
def namesAfter (calls : List (TabCall κ)) (answers : List TabAnswer) : List String :=
  (calls.zip answers).foldl (fun names event => event.1.names names event.2) []

/-- The name of the tab that a call is about. -/
def about (workspace : Workspace κ) : TabCall κ → Option String
  | .openText name _ => some name
  | .openFile _ path => some (documentName path)
  | .activate name => some name
  | .close name => some name
  | .edit _ => workspace.active?.map Tab.name

theorem about_of_opens {workspace : Workspace κ} {call : TabCall κ} {name : String}
    (opens : call.opens = some name) : call.about workspace = some name := by
  cases call with
  | openText => exact opens
  | openFile => exact opens
  | activate => cases opens
  | close => cases opens
  | edit => cases opens

theorem nodup_middle {name : String} {before after : List String} :
    (before ++ name :: after).Nodup ↔ name ∉ before ++ after ∧ (before ++ after).Nodup :=
  List.perm_middle.nodup_iff.trans List.nodup_cons

end TabCall

namespace Workspace

variable {workspace next last : Workspace κ} {call : TabCall κ} {answer : TabAnswer}
variable {name : String} {tab : Tab κ} {before after : List (Tab κ)}

theorem names_of_place (place : workspace.tabs = before ++ tab :: after) :
    workspace.names = before.map Tab.name ++ tab.name :: after.map Tab.name := by
  rw [names, place, List.map_append, List.map_cons]

/-- A tab in the middle does not hide the tabs of other names. -/
theorem find?_middle (other : tab.name ≠ name) :
    (before ++ tab :: after).find? (fun tab => tab.name = name) =
      (before ++ after).find? fun tab => tab.name = name := by
  rw [List.find?_append, List.find?_append, List.find?_cons_of_neg (by simpa using other)]

variable [Coordinate κ]

/-! ## Steps -/

/-- The names open after a call are those that its answer tells. -/
theorem Goes.names_eq (distinct : workspace.names.Nodup) (goes : workspace.Goes call next answer) :
    next.names = call.names workspace.names answer := by
  have erased : ∀ {tab : Tab κ} {before after : List (Tab κ)},
      workspace.tabs = before ++ tab :: after → next.tabs = before ++ after →
      next.names = workspace.names.erase tab.name := by
    intro tab before after place tabs
    have whole := names_of_place place
    have fresh : tab.name ∉ before.map Tab.name := by
      rw [whole, TabCall.nodup_middle] at distinct
      intro member
      exact distinct.1 (List.mem_append_left _ member)
    rw [whole, List.erase_append_right _ fresh, List.erase_cons_head, names, tabs,
      List.map_append]
  cases goes with
  | refused => rfl
  | reopened opens found setup tabs =>
      have present := name_mem_of_tab? found
      simp only [TabCall.names, opens, if_pos present]
      rw [names, tabs, ← names]
  | opened opens absent made setup tabs =>
      simp only [TabCall.names, opens, if_neg absent]
      rw [names, tabs, List.map_append]
      rfl
  | activated found setup tabs =>
      simp only [TabCall.names]
      rw [names, tabs, ← names]
  | notActivated => rfl
  | closed place other setup tabs => exact erased place tabs
  | closedActive place was setup tabs => exact erased place tabs
  | notClosed absent => exact (List.erase_of_not_mem absent).symm
  | edited place was steps setup tabs =>
      simp only [TabCall.names]
      rw [names_of_place place, names_of_place tabs]
  | notEdited => rfl

/-- A call leaves alone all tabs but the one it is about. -/
theorem Goes.others (goes : workspace.Goes call next answer)
    (other : call.about workspace ≠ some name) : next.tab? name = workspace.tab? name := by
  have apart : ∀ {opened : String}, call.opens = some opened → opened ≠ name := by
    intro opened opens same
    exact other (same ▸ TabCall.about_of_opens opens)
  cases goes with
  | refused => rfl
  | reopened opens found setup tabs => rw [tab?_eq_find?, tabs, ← tab?_eq_find?]
  | opened opens absent made setup tabs =>
      rw [tab?_eq_find?, tabs, find?_middle (apart opens), List.append_nil, ← tab?_eq_find?]
  | activated found setup tabs => rw [tab?_eq_find?, tabs, ← tab?_eq_find?]
  | notActivated => rfl
  | closed place inactive setup tabs =>
      have named := fun same => other (congrArg some same)
      rw [tab?_eq_find?, tab?_eq_find?, tabs, place, find?_middle named]
  | closedActive place was setup tabs =>
      have named := fun same => other (congrArg some same)
      rw [tab?_eq_find?, tab?_eq_find?, tabs, place, find?_middle named]
  | notClosed => rfl
  | @edited _ _ tab _ _ _ _ place was steps setup tabs =>
      have named : tab.name ≠ name := by
        intro same
        apply other
        rw [TabCall.about, was, ← same]
        rfl
      rw [tab?_eq_find?, tab?_eq_find?, tabs, place, find?_middle named]
      exact find?_middle named
  | notEdited => rfl

/-! ## Runs -/

/-- Carry out calls in order, collecting their answers. -/
def run (workspace : Workspace κ) : List (TabCall κ) → Checked (Workspace κ × List TabAnswer)
  | [] => .ok (workspace, [])
  | call :: later => do
      let (next, answer) ← workspace.step call
      let (last, answers) ← next.run later
      return (last, answer :: answers)

/-- A run begins with its first call. -/
theorem exists_of_run_cons {later : List (TabCall κ)} {answers : List TabAnswer}
    (runs : workspace.run (call :: later) = .ok (last, answers)) :
    ∃ next answer rest, workspace.step call = .ok (next, answer) ∧
      next.run later = .ok (last, rest) ∧ answers = answer :: rest := by
  obtain ⟨first, steps, continues⟩ := exists_of_bind runs
  obtain ⟨rest, goesOn, ends⟩ := exists_of_bind continues
  obtain ⟨rfl, rfl⟩ := Prod.mk.inj (Except.ok.inj ends)
  exact ⟨first.1, first.2, rest.2, steps, goesOn, rfl⟩

/-- Along a run the tabs stay orderly, and their names are those that the answers
tell. -/
theorem Orderly.run {calls : List (TabCall κ)} {answers : List TabAnswer}
    (orderly : workspace.Orderly) (runs : workspace.run calls = .ok (last, answers)) :
    last.Orderly ∧
      last.names = (calls.zip answers).foldl (fun names event => event.1.names names event.2)
        workspace.names := by
  induction calls generalizing workspace answers with
  | nil =>
      obtain ⟨rfl, rfl⟩ := Prod.mk.inj (Except.ok.inj runs)
      exact ⟨orderly, rfl⟩
  | cons call later inductionHypothesis =>
      obtain ⟨next, answer, rest, steps, goesOn, rfl⟩ := exists_of_run_cons runs
      have goes := orderly.goes steps
      obtain ⟨lastOrderly, names⟩ := inductionHypothesis (orderly.step steps) goesOn
      rw [goes.names_eq orderly.distinct] at names
      exact ⟨lastOrderly, names⟩

/-- After every run the tabs are those that were opened and not closed since, in
that order, and the active index designates one of them; each further call does to
them what it should and nothing to tabs that it is not about. -/
theorem run_orderly {settings : Settings κ} {metrics : GlyphMetrics κ}
    {calls : List (TabCall κ)} {answers : List TabAnswer}
    (runs : (empty settings metrics).run calls = .ok (last, answers)) :
    last.Orderly ∧ (last.active? = none ↔ last.tabs = []) ∧
      (∀ tab, last.active? = some tab → tab ∈ last.tabs) ∧
      last.names = TabCall.namesAfter calls answers ∧
      ∀ (call : TabCall κ) (next : Workspace κ) (answer : TabAnswer),
        last.step call = .ok (next, answer) →
          last.Goes call next answer ∧ next.Orderly ∧
            ∀ name, call.about last ≠ some name → next.tab? name = last.tab? name := by
  obtain ⟨orderly, names⟩ := (orderly_empty settings metrics).run runs
  refine ⟨orderly, orderly.active?_eq_none_iff, fun _ => mem_tabs_of_active, names, ?_⟩
  intro call next answer steps
  have goes := orderly.goes steps
  exact ⟨goes, orderly.step steps, fun name other => goes.others other⟩

/-- A document is closed on the left of the active one, then the first one while it is
active, and one that is open is asked for again. -/
def rearranging : List (TabCall Float32) :=
  [.openText "a" "x", .openText "b" "y", .openText "c" "z", .edit .insertLine, .close "a",
    .activate "b", .close "b", .openText "c" "w"]

theorem run_orderly_rearranging :
    ∃ (last : Workspace Float32) (answers : List TabAnswer),
      (empty Settings.standard (GlyphMetrics.monospace GlyphMetrics.standardCell)).run
          rearranging = .ok (last, answers) ∧
        last.Orderly ∧ last.names = TabCall.namesAfter rearranging answers ∧
          last.names = ["c"] ∧ last.active = some 0 := by
  have goes : ((empty Settings.standard (GlyphMetrics.monospace GlyphMetrics.standardCell)).run
      rearranging).toOption.any (fun pair => pair.1.names = ["c"] ∧ pair.1.active = some 0) =
        true := by decide +kernel
  obtain ⟨⟨last, answers⟩, runs, ends⟩ := (Option.any_eq_true _ _).mp goes
  obtain ⟨names, active⟩ := of_decide_eq_true ends
  obtain runs := eq_ok_of_toOption runs
  have orderly := run_orderly runs
  exact ⟨last, answers, runs, orderly.1, orderly.2.2.2.1, names, active⟩

end Workspace

end EditorCore
