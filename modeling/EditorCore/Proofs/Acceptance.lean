import EditorCore.Proofs.Manuscript

/-!
Contract: an edit is accepted exactly when the verdict on the draft says so.

Owns:
- `Editor.Makes`, an editor that an edit has left with a draft, with lines made as
  before and room as before;
- `Editor.Obeys`, an edit that ends as a verdict says, and that every edit of an editor
  that shows a draft does;
- both directions of this: what an accepted call tells about the draft, and which calls
  are accepted.

Does not own: when a verdict accepts, or what becomes of the draft then.
-/

namespace EditorCore

/-- What the call of an edit reports when the edit is accepted. -/
def Edit.acceptance : Edit → Answer
  | .paste _ => .pasted (.ok true)
  | _ => .applied true

namespace Editor

variable {κ : Type} [Coordinate κ]

/-- What an accepted edit leaves of an editor. -/
structure Makes (editor next : Editor κ) (target : Draft) : Prop extends Shows next target where
  look : next.look = editor.look
  capacity : next.buffer.capacity = editor.buffer.capacity

/-- An edit is accepted with the draft of its verdict, or not at all. -/
def Obeys (editor : Editor κ) (edit : Edit) : Verdict Draft → Prop
  | .accepted target =>
      ∃ next, editor.step edit.call = .ok (next, edit.acceptance) ∧ editor.Makes next target
  | .declined | .full _ => ∀ next, editor.step edit.call ≠ .ok (next, edit.acceptance)

section

variable {editor next : Editor κ} {draft target : Draft} {edit : Edit}

theorem Settled.makes {desired : Option Nat} (settled : Settled editor next desired target) :
    editor.Makes next target where
  toShows := settled.toShows
  look := congrArg Surroundings.look settled.around
  capacity := settled.capacity

theorem Makes.options (makes : editor.Makes next target) : next.options = editor.options :=
  congrArg Look.options makes.look

/-- Two accepted edits one after the other make the later draft. -/
theorem Makes.trans {last : Editor κ} {final : Draft} (first : editor.Makes next target)
    (second : next.Makes last final) : editor.Makes last final where
  toShows := second.toShows
  look := second.look.trans first.look
  capacity := second.capacity.trans first.capacity

/-- No refusal is reported as an acceptance. -/
theorem Ends.obeys {α : Type} (report : α → Answer) {yes no : α} {full : Nat → α}
    {verdict : Verdict Draft} {outcome : Checked (Editor κ × α)}
    (ends : editor.Ends yes no full verdict outcome)
    (steps : editor.step edit.call = do
      let (next, result) ← outcome
      return (next, report result))
    (accepts : report yes = edit.acceptance) (declines : report no ≠ edit.acceptance)
    (fills : ∀ required, report (full required) ≠ edit.acceptance) :
    editor.Obeys edit verdict := by
  cases verdict with
  | accepted target =>
      obtain ⟨next, rfl, settled⟩ := ends
      refine ⟨next, ?_, settled.makes⟩
      rw [steps, ← accepts]
      rfl
  | declined =>
      subst ends
      intro next accepted
      have same := steps.symm.trans accepted
      exact declines (Prod.mk.inj (Except.ok.inj same)).2
  | full required =>
      subst ends
      intro next accepted
      obtain ⟨pair, answers, same⟩ := exists_of_bind (steps.symm.trans accepted)
      unfold ifWord at answers
      split at answers
      · obtain rfl := Except.ok.inj answers
        exact fills required (Prod.mk.inj (Except.ok.inj same)).2
      · exact absurd answers nofun

theorem Applies.obeys {verdict : Verdict Draft} {outcome : Checked (Editor κ × Bool)}
    (applies : editor.Applies verdict outcome)
    (steps : editor.step edit.call = do
      let (next, effect) ← outcome
      return (next, .applied effect))
    (plain : edit.acceptance = .applied true) : editor.Obeys edit verdict :=
  Ends.obeys .applied applies steps plain.symm (by simp [plain]) (by simp [plain])

/-- A typed character obeys the verdict on Enter or on a run of one. -/
theorem Shows.obeys_character (shows : editor.Shows draft) (char : Char) :
    editor.Obeys (.character char) ((editor.manuscript draft).verdict (.character char)) := by
  rw [Manuscript.verdict]
  by_cases ends : isBreak char = true
  · have same : editor.insertChar char = editor.insertLine := if_pos ends
    rw [if_pos ends]
    exact Applies.obeys shows.insertLine (by rw [← same]; rfl) rfl
  · have same : editor.insertChar char = editor.typeRun [char] := if_neg ends
    have clean : Unbroken [char] := unbroken_singleton.mpr (Bool.eq_false_iff.mpr ends)
    rw [if_neg ends]
    exact Applies.obeys (shows.typeRun clean) (by rw [← same]; rfl) rfl

theorem Shows.obeys_paste (shows : editor.Shows draft) (text : String) :
    editor.Obeys (.paste text) ((editor.manuscript draft).verdict (.paste text)) := by
  by_cases empty : text.toList = []
  · have unchanged : (editor.manuscript draft).verdict (.paste text) = .accepted draft := by
      rw [Manuscript.verdict, empty]
      exact Draft.paste_empty editor.options.rules shows.bounded
    have pastes : editor.paste text = .ok (editor, .ok true) := if_pos empty
    rw [unchanged]
    refine ⟨editor, ?_, shows, rfl, rfl⟩
    change (editor.paste text >>= _) = _
    rw [pastes]
    rfl
  · exact Ends.obeys .pasted (shows.paste empty) rfl rfl nofun fun _ => nofun

/-- Every edit ends as its verdict says. -/
theorem Shows.obeys (shows : editor.Shows draft) (edit : Edit) :
    editor.Obeys edit ((editor.manuscript draft).verdict edit) := by
  cases edit with
  | character char => exact shows.obeys_character char
  | newline => exact Applies.obeys shows.insertLine rfl rfl
  | tab => exact Applies.obeys shows.indent rfl rfl
  | backspace => exact Applies.obeys shows.outdent (by rw [← shows.deleteChar_eq]; rfl) rfl
  | outdent => exact Applies.obeys shows.outdent rfl rfl
  | paste text => exact shows.obeys_paste text

/-- An edit whose verdict accepts is accepted. -/
theorem Shows.step_of_accepted (shows : editor.Shows draft)
    (accepted : (editor.manuscript draft).verdict edit = .accepted target) :
    ∃ next, editor.step edit.call = .ok (next, edit.acceptance) ∧ editor.Makes next target := by
  have obeys := shows.obeys edit
  rwa [accepted] at obeys

/-- An edit that was accepted has a verdict that accepts. -/
theorem Shows.makes_of_step (shows : editor.Shows draft)
    (steps : editor.step edit.call = .ok (next, edit.acceptance)) :
    ∃ target, (editor.manuscript draft).verdict edit = .accepted target ∧
      editor.Makes next target := by
  have obeys := shows.obeys edit
  cases verdict : (editor.manuscript draft).verdict edit with
  | accepted target =>
      rw [verdict] at obeys
      obtain ⟨last, accepts, makes⟩ := obeys
      obtain ⟨rfl, -⟩ := Prod.mk.inj (Except.ok.inj (steps.symm.trans accepts))
      exact ⟨target, rfl, makes⟩
  | declined =>
      rw [verdict] at obeys
      exact absurd steps (obeys next)
  | full required =>
      rw [verdict] at obeys
      exact absurd steps (obeys next)

/-- An accepted Enter leads to the entered draft. -/
theorem Shows.makes_insertLine (shows : editor.Shows draft)
    (steps : editor.step .insertLine = .ok (next, .applied true)) :
    editor.Makes next (draft.entered editor.options) := by
  change editor.step Edit.newline.call = .ok (next, Edit.newline.acceptance) at steps
  obtain ⟨target, accepted, makes⟩ := shows.makes_of_step steps
  obtain ⟨-, -, rfl⟩ := Draft.enter_eq_accepted.mp accepted
  exact makes

end

end Editor

end EditorCore
