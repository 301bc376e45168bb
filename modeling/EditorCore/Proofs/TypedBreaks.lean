import EditorCore.Proofs.Transition

/-!
Contract: which typed LF is the second half of a typed CR.

Owns:
- the memory of a typed CR along a run;
- `Editor.BreaksOnLf`, that a typed LF splits the line as if no CR had been typed
  before it;
- that it does after the next input event, and that no other call makes it do so.

Does not own: what splitting a line does to the document.
-/

namespace EditorCore

variable {κ : Type}

namespace Call

/-- The call is an input event of a host. -/
def IsInput : Call κ → Prop
  | .onCharacter _ | .onKey _ | .onMouseDown _ _ | .onPaste _ => True
  | _ => False

def TypesCr : Call κ → Prop
  | .onCharacter char => char = '\r'
  | _ => False

theorem typedCr_of_isInput {call : Call κ} (input : call.IsInput) (other : ¬ call.TypesCr)
    (before : Bool) : call.typedCr before = false := by
  cases call with
  | onCharacter char => exact decide_eq_false other
  | onKey | onMouseDown | onPaste => rfl
  | _ => exact absurd input id

theorem typedCr_of_not_isInput {call : Call κ} (quiet : ¬ call.IsInput) (before : Bool) :
    call.typedCr before = before := by
  cases call with
  | onCharacter | onKey | onMouseDown | onPaste => exact absurd trivial quiet
  | _ => rfl

/-- Calls that are no input events leave the memory of a typed CR alone. -/
theorem foldl_typedCr_of_quiet {calls : List (Call κ)} (quiet : ∀ call ∈ calls, ¬ call.IsInput)
    (before : Bool) : calls.foldl typedCr before = before := by
  induction calls with
  | nil => rfl
  | cons call later inductionHypothesis =>
      obtain ⟨here, rest⟩ := List.forall_mem_cons.mp quiet
      rw [List.foldl_cons, typedCr_of_not_isInput here]
      exact inductionHypothesis rest

/-- After an input event, a typed CR is remembered only if it comes later. -/
theorem foldl_typedCr_of_input {calls : List (Call κ)} (input : ∃ call ∈ calls, call.IsInput)
    (noCr : ∀ call ∈ calls, ¬ call.TypesCr) (before : Bool) :
    calls.foldl typedCr before = false := by
  induction calls generalizing before with
  | nil => exact absurd input (by simp)
  | cons call later inductionHypothesis =>
      obtain ⟨here, rest⟩ := List.forall_mem_cons.mp noCr
      rw [List.foldl_cons]
      by_cases more : ∃ call ∈ later, call.IsInput
      · exact inductionHypothesis more rest _
      · have quiet : ∀ call ∈ later, ¬ call.IsInput :=
          fun other member event => more ⟨other, member, event⟩
        have event : call.IsInput := by
          obtain ⟨other, member, event⟩ := input
          rcases List.mem_cons.mp member with rfl | inLater
          · exact event
          · exact absurd event (quiet other inLater)
        rw [foldl_typedCr_of_quiet quiet, typedCr_of_isInput event here]

end Call

namespace Editor

variable [Coordinate κ] {editor : Editor κ}

/-! ## The memory of a typed CR -/

/-- The step lemma: what a call remembers of a typed CR depends on the call alone. -/
theorem Reachable.afterTypedCr_of_step {next : Editor κ} {call : Call κ} {answer : Answer}
    (reachable : editor.Reachable) (steps : editor.step call = .ok (next, answer)) :
    next.afterTypedCr = call.typedCr editor.afterTypedCr := by
  obtain ⟨draft, shows⟩ := reachable.shows
  obtain ⟨target, leaves⟩ := shows.leaves_of_step steps
  exact leaves.afterTypedCr_eq

/-- The run lemma: the last input event decides. -/
theorem Reachable.afterTypedCr_of_run {calls : List (Call κ)} {last : Editor κ}
    {answers : List Answer} (reachable : editor.Reachable)
    (runs : editor.run calls = .ok (last, answers)) :
    last.afterTypedCr = calls.foldl Call.typedCr editor.afterTypedCr := by
  induction calls generalizing editor answers with
  | nil =>
      obtain ⟨rfl, -⟩ := Prod.mk.inj (Except.ok.inj runs)
      rfl
  | cons call later inductionHypothesis =>
      obtain ⟨next, answer, rest, steps, runs, -⟩ := exists_of_run_cons runs
      rw [List.foldl_cons, ← reachable.afterTypedCr_of_step steps]
      exact inductionHypothesis (.stepped reachable steps) runs

/-! ## The LF -/

/-- A typed LF splits the line wherever a new line is accepted, just as it does
where no CR has been typed. -/
structure BreaksOnLf (editor : Editor κ) : Prop where
  unpaired : editor.step (.onCharacter '\n') = editor.forgetTypedCr.step (.onCharacter '\n')
  splits : ∃ plain, editor.Reads plain ∧
    ∀ split, plain.enter editor.options editor.buffer.capacity = .accepted split →
      ∃ next, editor.step (.onCharacter '\n') = .ok (next, .applied true) ∧ next.Reads split

/-- An LF that has no CR before it is Enter. -/
theorem onCharacter_lf (apart : editor.afterTypedCr = false) :
    editor.onCharacter '\n' = editor.insertLine := by
  have heard : ¬ ('\n' = '\n' ∧ editor.afterTypedCr = true) := by simp [apart]
  have noted : ({ editor with afterTypedCr := '\n' = '\r' } : Editor κ) = editor := by
    rw [show decide ('\n' = '\r') = editor.afterTypedCr from apart.symm]
  have enters : editor.onCharacter '\n' =
      ({ editor with afterTypedCr := '\n' = '\r' } : Editor κ).insertLine :=
    (if_neg heard).trans (if_pos rfl)
  rw [enters, noted]

theorem Reachable.breaksOnLf (reachable : editor.Reachable) (apart : editor.afterTypedCr = false) :
    editor.BreaksOnLf where
  unpaired := by
    have same : editor.forgetTypedCr = editor := by
      rw [forgetTypedCr, ← apart]
    rw [same]
  splits := by
    obtain ⟨draft, shows⟩ := reachable.shows
    refine ⟨draft.plain, shows.reads, ?_⟩
    intro split accepts
    have follows := shows.follows .newline
    rw [PlainText.judge, accepts] at follows
    obtain ⟨next, enters, reads, -⟩ := follows
    refine ⟨next, ?_, reads⟩
    rw [Editor.step, onCharacter_lf apart]
    exact enters

theorem step_lf_of_afterTypedCr (remembered : editor.afterTypedCr = true) :
    editor.step (.onCharacter '\n') = .ok (editor.forgetTypedCr, .applied false) := by
  have swallows : editor.onCharacter '\n' = .ok (editor.forgetTypedCr, false) :=
    if_pos ⟨rfl, remembered⟩
  rw [Editor.step, swallows]
  rfl

/-- After a typed CR a typed LF is swallowed until some other input event comes,
and splits the line from then on.  Calls that are no input events, whether they
edit, load or move, are not noticed. -/
theorem typed_lf_breaks_after_input {between : List (Call κ)} {last : Editor κ}
    {answers : List Answer} (reachable : editor.Reachable)
    (runs : editor.run (.onCharacter '\r' :: between) = .ok (last, answers))
    (noCr : ∀ call ∈ between, ¬ call.TypesCr) :
    ((∃ call ∈ between, call.IsInput) → last.BreaksOnLf) ∧
      ((∀ call ∈ between, ¬ call.IsInput) →
        last.step (.onCharacter '\n') = .ok (last.forgetTypedCr, .applied false)) := by
  have memory := reachable.afterTypedCr_of_run runs
  rw [List.foldl_cons] at memory
  constructor
  · intro input
    apply (reachable.last runs).breaksOnLf
    rw [memory, Call.foldl_typedCr_of_input input noCr]
  · intro quiet
    apply step_lf_of_afterTypedCr
    rw [memory, Call.foldl_typedCr_of_quiet quiet]
    rfl

/-- A key that is pressed after a motion. -/
theorem typed_lf_breaks_after_input_standard :
    standard.Reachable ∧
      ∃ last answers,
        standard.run [.onCharacter '\r', .move .left, .onKey .right] = .ok (last, answers) ∧
          last.BreaksOnLf := by
  obtain ⟨last, answers, runs, -⟩ := reachable_standard.of_run
    [.onCharacter '\r', .move .left, .onKey .right] (by decide +kernel)
  have noCr : ∀ call ∈ [.move .left, .onKey .right], ¬ (call : Call Float32).TypesCr := by
    simp [Call.TypesCr]
  have breaks := typed_lf_breaks_after_input reachable_standard runs noCr
  exact ⟨reachable_standard, last, answers, runs, breaks.1 ⟨.onKey .right, by simp, trivial⟩⟩

theorem not_breaksOnLf {next : Editor κ} {answer : Answer}
    (remembered : editor.afterTypedCr = true)
    (enters : editor.forgetTypedCr.step (.onCharacter '\n') = .ok (next, answer))
    (grows : next.lines.size ≠ editor.lines.size) : ¬ editor.BreaksOnLf := by
  intro breaks
  have unpaired := breaks.unpaired
  rw [step_lf_of_afterTypedCr remembered, enters] at unpaired
  obtain ⟨rfl, -⟩ := Prod.mk.inj (Except.ok.inj unpaired)
  exact grows rfl

/-- Not even another document keeps the next LF from being swallowed. -/
theorem lf_swallowed_after_load :
    ∃ last answers, standard.run [.onCharacter '\r', .loadDocument "ab"] = .ok (last, answers) ∧
      last.buffer.toList = ['a', 'b'] ∧ last.lines.size = 1 ∧ ¬ last.BreaksOnLf := by
  have facts : ((standard.run [.onCharacter '\r', .loadDocument "ab"]).toOption.any
      fun outcome =>
        decide (outcome.1.buffer.toList = ['a', 'b'] ∧ outcome.1.lines.size = 1 ∧
          outcome.1.afterTypedCr = true) &&
        (outcome.1.forgetTypedCr.step (.onCharacter '\n')).toOption.any
          fun reply => decide (reply.1.lines.size = 2)) = true := by decide +kernel
  cases runs : standard.run [.onCharacter '\r', .loadDocument "ab"] with
  | error fault =>
      rw [runs] at facts
      exact absurd facts Bool.false_ne_true
  | ok outcome =>
      rw [runs] at facts
      obtain ⟨here, breaks⟩ := Bool.and_eq_true_iff.mp facts
      obtain ⟨text, single, remembered⟩ := of_decide_eq_true here
      refine ⟨outcome.1, outcome.2, rfl, text, single, ?_⟩
      cases enters : outcome.1.forgetTypedCr.step (.onCharacter '\n') with
      | error fault =>
          rw [enters] at breaks
          exact absurd breaks Bool.false_ne_true
      | ok reply =>
          rw [enters] at breaks
          have double : reply.1.lines.size = 2 := of_decide_eq_true breaks
          exact not_breaksOnLf remembered enters (by omega)

end Editor

end EditorCore
