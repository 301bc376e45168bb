import EditorCore.Proofs.Acceptance
import EditorCore.Proofs.Typing

/-!
Contract: pasting a text is pasting its parts one after the other.

Owns:
- `CutsNoBreak`, a text cut in two so that no break reaches over the cut;
- that the segments of the parts, put one after the other, come to the same document as
  the segments of the whole, in as many lines and characters;
- that the whole is accepted exactly when its parts are, one after the other.

Does not own: cuts between the CR and the LF of a break.
-/

namespace EditorCore

/-- No break begins at the end of one text and ends at the start of the next. -/
def CutsNoBreak (first later : List Char) : Prop :=
  ¬ (first.getLast? = some '\r' ∧ later.head? = some '\n')

theorem CutsNoBreak.of_append (start : List Char) {first later : List Char}
    (cut : CutsNoBreak (start ++ first) later) : CutsNoBreak first later := by
  rintro ⟨returns, feeds⟩
  apply cut
  rw [List.getLast?_append, returns]
  exact ⟨rfl, feeds⟩

/-- An ending stays what it is before a longer text. -/
theorem CutsNoBreak.before_append {ending : LineEnding} {first later : List Char}
    (cut : CutsNoBreak (ending.chars ++ first) later) (before : ending.Before first) :
    ending.Before (first ++ later) := by
  rintro rfl
  cases first with
  | nil => exact fun feeds => cut ⟨rfl, feeds⟩
  | cons char rest => exact before rfl

/-! ## Segments of two texts -/

namespace Draft

variable {first later : List Char}

/-- The segments of a text go on where those of another have ended: its first segment ends
the last line of the other. -/
theorem pasted_pasted (cut : CutsNoBreak first later) (draft : Draft) :
    (draft.pasted (segments first)).pasted (segments later) =
      draft.pasted (segments (first ++ later)) := by
  -- By whole breaks, so that a CR stays with the LF that follows it.
  induction first using text_induction generalizing draft with
  | nil =>
      have nothing : draft.pasted (segments []) = draft := draft.typed_nil
      rw [nothing, List.nil_append]
  | ordinary char text ordinary inductionHypothesis =>
      rw [List.cons_append, segments_cons ordinary, segments_cons ordinary,
        draft.pasted_modifyHead (segments_ne_nil _), draft.pasted_modifyHead (segments_ne_nil _)]
      exact inductionHypothesis (CutsNoBreak.of_append [char] cut) _
  | ending ending text before inductionHypothesis =>
      rw [List.append_assoc, segments_ending before, segments_ending (cut.before_append before),
        draft.pasted_cons_nil (segments_ne_nil _), draft.pasted_cons_nil (segments_ne_nil _)]
      exact inductionHypothesis (CutsNoBreak.of_append ending.chars cut) _

theorem row_pasted (draft : Draft) (text : List Char) :
    (draft.pasted (segments text)).row + 1 = draft.row + (segments text).length := by
  change ((draft.typed (cutAtBreaks text).1).streamed (cutAtBreaks text).2).row + 1 = _
  rw [row_streamed, segments, List.length_cons]
  rfl

end Draft

section

variable {first later : List Char} (cut : CutsNoBreak first later)

include cut

/-- The room that a text asks for is that for its parts. -/
theorem joinedLength_segments_append :
    joinedLength (segments (first ++ later)) =
      joinedLength (segments first) + joinedLength (segments later) := by
  have lengths := congrArg (fun draft => draft.text.length) (Draft.pasted_pasted cut Draft.blank)
  simp only [Draft.length_text_pasted _ (segments_ne_nil _)] at lengths
  omega

/-- The last segment of a text and the first one of the next become one. -/
theorem length_segments_append :
    (segments (first ++ later)).length + 1 = (segments first).length + (segments later).length := by
  have rows := congrArg Draft.row (Draft.pasted_pasted cut Draft.blank)
  have one := Draft.blank.row_pasted first
  have two := (Draft.blank.pasted (segments first)).row_pasted later
  have both := Draft.blank.row_pasted (first ++ later)
  omega

end

/-! ## Acceptance -/

namespace Draft

variable {κ : Type} {options : Options κ} {capacity : Nat} {first later : List Char}

/-- A draft can take a text: the lines are allowed, and there is room. -/
def Takes (options : Options κ) (capacity : Nat) (draft : Draft) (text : List Char) : Prop :=
  (1 < (segments text).length → options.multiline = true) ∧
    draft.text.length + joinedLength (segments text) ≤ capacity

/-- A draft takes a text exactly when it takes its parts one after the other. -/
theorem takes_append_iff (cut : CutsNoBreak first later) (draft : Draft) :
    draft.Takes options capacity (first ++ later) ↔
      draft.Takes options capacity first ∧
        (draft.pasted (segments first)).Takes options capacity later := by
  have room := joinedLength_segments_append cut
  have count := length_segments_append cut
  have someFirst : 0 < (segments first).length := Nat.succ_pos _
  have someLater : 0 < (segments later).length := Nat.succ_pos _
  rw [Takes, Takes, Takes, length_text_pasted draft (segments_ne_nil first), room]
  constructor
  · rintro ⟨allowed, fits⟩
    exact ⟨⟨fun more => allowed (by omega), by omega⟩, fun more => allowed (by omega), by omega⟩
  · rintro ⟨⟨allowedFirst, -⟩, allowedLater, fits⟩
    refine ⟨fun more => ?_, by omega⟩
    by_cases broken : 1 < (segments first).length
    · exact allowedFirst broken
    · exact allowedLater (by omega)

end Draft

namespace Editor

variable {κ : Type} [Coordinate κ] {editor next : Editor κ} {draft : Draft}

/-- A paste that the draft can take is accepted. -/
theorem Shows.step_paste_of_takes (shows : editor.Shows draft) {text : String}
    (takes : draft.Takes editor.options editor.buffer.capacity text.toList) :
    ∃ next, editor.step (.paste text) = .ok (next, .pasted (.ok true)) ∧
      editor.Makes next (draft.pasted (segments text.toList)) := by
  have accepted : (editor.manuscript draft).verdict (.paste text) =
      .accepted (draft.pasted (segments text.toList)) :=
    Draft.paste_eq_accepted.mpr ⟨takes.1, takes.2, rfl⟩
  exact shows.step_of_accepted accepted

/-- A paste that was accepted could be taken. -/
theorem Shows.takes_of_step_paste (shows : editor.Shows draft) {text : String}
    (steps : editor.step (.paste text) = .ok (next, .pasted (.ok true))) :
    draft.Takes editor.options editor.buffer.capacity text.toList ∧
      editor.Makes next (draft.pasted (segments text.toList)) := by
  change editor.step (Edit.paste text).call = .ok (next, (Edit.paste text).acceptance) at steps
  obtain ⟨target, accepted, makes⟩ := shows.makes_of_step steps
  obtain ⟨allowed, fits, rfl⟩ := Draft.paste_eq_accepted.mp accepted
  exact ⟨⟨allowed, fits⟩, makes⟩

/-- A text that is cut in two, but not within a break, can be pasted as a whole exactly when
its parts can be pasted one after the other, and the document is the same then: the
segments of the whole text, put at the caret's place. -/
theorem paste_composes (reachable : editor.Reachable) {first later : String}
    (cut : CutsNoBreak first.toList later.toList) :
    (∀ whole, editor.step (.paste (first ++ later)) = .ok (whole, .pasted (.ok true)) →
      ∃ middle last, editor.step (.paste first) = .ok (middle, .pasted (.ok true)) ∧
        middle.step (.paste later) = .ok (last, .pasted (.ok true)) ∧
        whole.SameDocument last) ∧
    (∀ middle last, editor.step (.paste first) = .ok (middle, .pasted (.ok true)) →
      middle.step (.paste later) = .ok (last, .pasted (.ok true)) →
      ∃ whole, editor.step (.paste (first ++ later)) = .ok (whole, .pasted (.ok true)) ∧
        whole.SameDocument last) ∧
    ∃ before, editor.Reads before ∧
      (∀ whole, editor.step (.paste (first ++ later)) = .ok (whole, .pasted (.ok true)) →
        whole.Reads (before.pasted (segments (first ++ later).toList))) ∧
      before.pasted (segments (first ++ later).toList) =
        (before.pasted (segments first.toList)).pasted (segments later.toList) := by
  obtain ⟨draft, shows⟩ := reachable.shows
  have agree : ∀ whole last,
      editor.Makes whole (draft.pasted (segments (first ++ later).toList)) →
      editor.Makes last
        ((draft.pasted (segments first.toList)).pasted (segments later.toList)) →
      whole.SameDocument last := by
    intro whole last makes composes
    rw [String.toList_append, ← Draft.pasted_pasted cut] at makes
    exact makes.toShows.sameDocument composes.toShows (makes.look.trans composes.look.symm)
  refine ⟨?_, ?_, draft.plain, shows.reads, ?_, ?_⟩
  · intro whole steps
    obtain ⟨takes, makes⟩ := shows.takes_of_step_paste steps
    rw [String.toList_append, Draft.takes_append_iff cut] at takes
    obtain ⟨middle, begins, middleMakes⟩ := shows.step_paste_of_takes takes.1
    have rest := takes.2
    rw [← middleMakes.options, ← middleMakes.capacity] at rest
    obtain ⟨last, goesOn, lastMakes⟩ := middleMakes.toShows.step_paste_of_takes rest
    exact ⟨middle, last, begins, goesOn, agree whole last makes (middleMakes.trans lastMakes)⟩
  · intro middle last begins goesOn
    obtain ⟨takes, middleMakes⟩ := shows.takes_of_step_paste begins
    obtain ⟨takesLater, lastMakes⟩ := middleMakes.toShows.takes_of_step_paste goesOn
    rw [middleMakes.options, middleMakes.capacity] at takesLater
    have takesBoth := (Draft.takes_append_iff cut draft).mpr ⟨takes, takesLater⟩
    rw [← String.toList_append] at takesBoth
    obtain ⟨whole, steps, makes⟩ := shows.step_paste_of_takes takesBoth
    exact ⟨whole, steps, agree whole last makes (middleMakes.trans lastMakes)⟩
  · intro whole steps
    obtain ⟨-, makes⟩ := shows.takes_of_step_paste steps
    rw [← draft.plain_pasted (segments_ne_nil _)]
    exact makes.toShows.reads
  · rw [← Draft.plain_pasted _ (segments_ne_nil _), ← Draft.plain_pasted _ (segments_ne_nil _),
      ← Draft.plain_pasted _ (segments_ne_nil _), String.toList_append, Draft.pasted_pasted cut]

/-- A cut right after a lone CR, with breaks on both sides. -/
theorem paste_composes_standard :
    ∃ whole middle last : Editor Float32,
      standard.step (.paste ("a\n\r" ++ "\rb")) = .ok (whole, .pasted (.ok true)) ∧
      standard.step (.paste "a\n\r") = .ok (middle, .pasted (.ok true)) ∧
      middle.step (.paste "\rb") = .ok (last, .pasted (.ok true)) ∧
      whole.SameDocument last ∧
      whole.Reads { lines := [['a'], [], [], ['b']], row := 3, column := 1 } := by
  have cut : CutsNoBreak "a\n\r".toList "\rb".toList := fun both =>
    absurd both.2 (by decide)
  have accepted : (standard.step (.paste ("a\n\r" ++ "\rb"))).toOption.any
      (fun ends => decide (ends.2 = .pasted (.ok true))) = true := by decide +kernel
  obtain ⟨whole, steps⟩ := exists_of_result accepted
  obtain ⟨composes, -, before, reads, put, -⟩ := paste_composes reachable_standard cut
  obtain ⟨middle, last, begins, goesOn, same⟩ := composes whole steps
  obtain ⟨row, column⟩ := Position.mk.inj (Except.ok.inj reads.position)
  obtain rfl : { lines := [[]], row := 0, column := 0 } = before := by
    rw [PlainText.mk.injEq]
    exact ⟨reads.lines_eq, row, column⟩
  have found : PlainText.pasted { lines := [[]], row := 0, column := 0 }
      (segments ("a\n\r" ++ "\rb").toList) =
        { lines := [['a'], [], [], ['b']], row := 3, column := 1 } := by decide
  exact ⟨whole, middle, last, steps, begins, goesOn, same, found ▸ put whole steps⟩

end Editor

end EditorCore
