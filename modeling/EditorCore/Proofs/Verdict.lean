import EditorCore.Proofs.Draft
import EditorCore.Settings

/-!
Contract: what becomes of an edit, decided on the document alone.

Owns:
- `Verdict`, the ways in which an edit can end;
- the drafts that typing, Enter, a step back and a paste lead to, and when each
  of them is accepted;
- how many characters each of them can ask for.

Does not own: editors.
-/

namespace EditorCore

/-- What becomes of an edit. -/
inductive Verdict (α : Type) where
  /-- It leads to a document. -/
  | accepted (document : α)
  /-- There is nothing that it could do. -/
  | declined
  /-- The document that it would lead to is too long by itself. -/
  | full (required : Nat)
deriving DecidableEq, Repr

namespace Verdict

/-- Accept a document of some length where the capacity allows it. -/
def within {α : Type} (capacity required : Nat) (document : α) : Verdict α :=
  if required ≤ capacity then accepted document else full required

/-- The same verdict on another view of the document. -/
def map {α β : Type} (view : α → β) : Verdict α → Verdict β
  | accepted document => accepted (view document)
  | declined => declined
  | full required => full required

theorem map_within {α β : Type} (view : α → β) (capacity required : Nat) (document : α) :
    (within capacity required document).map view = within capacity required (view document) := by
  unfold within
  split <;> rfl

theorem within_eq_accepted {α : Type} {capacity required : Nat} {document target : α} :
    within capacity required document = accepted target ↔
      required ≤ capacity ∧ document = target := by
  unfold within
  split
  · rename_i fits
    rw [accepted.injEq, and_iff_right fits]
  · rename_i full
    exact iff_of_false nofun fun both => full both.1

/-- A refusal for want of room asks for no more than so many characters. -/
def AtMost {α : Type} (most : Nat) : Verdict α → Prop
  | full required => required ≤ most
  | accepted _ | declined => True

theorem atMost_within {α : Type} {capacity required most : Nat} {document : α}
    (bounded : required ≤ most) : (within capacity required document).AtMost most := by
  unfold within
  split
  · trivial
  · exact bounded

end Verdict

namespace Draft

variable {κ : Type}

/-! ## Where edits lead -/

/-- The indent units that Enter repeats. -/
def level (options : Options κ) (draft : Draft) : Nat :=
  if options.autoIndent then indentUnits options.tabSize (draft.before.takeWhile isBlank) else 0

def indentation (options : Options κ) (count : Nat) : List Char :=
  (List.replicate count options.indentUnit.chars).flatten

def entered (options : Options κ) (draft : Draft) : Draft :=
  draft.opened.typed (indentation options (draft.level options))

/-- The caret stands at the end of the line's indentation, and there is some. -/
def AtIndentBoundary (draft : Draft) : Prop :=
  0 < draft.column ∧ draft.column = leadingBlanks draft.current

instance (draft : Draft) : Decidable draft.AtIndentBoundary := by
  unfold AtIndentBoundary
  infer_instance

def enter (options : Options κ) (capacity : Nat) (draft : Draft) : Verdict Draft :=
  if options.multiline then
    .within capacity
      (draft.text.length + (separatorLength + draft.level options * options.indentUnit.length))
      (draft.entered options)
  else .declined

def type (capacity : Nat) (draft : Draft) (run : List Char) : Verdict Draft :=
  .within capacity (draft.text.length + run.length) (draft.typed run)

def eraseChar (draft : Draft) : Verdict Draft :=
  if 0 < draft.column then .accepted (draft.shortened 1)
  else
    match draft.folded? with
    | some folded => .accepted folded
    | none => .declined

def stepBack (options : Options κ) (draft : Draft) : Verdict Draft :=
  if draft.AtIndentBoundary then
    .accepted (draft.shortened (outdentWidth draft.before options.indentUnit.length))
  else draft.eraseChar

def paste (options : Options κ) (capacity : Nat) (draft : Draft) (pieces : List (List Char)) :
    Verdict Draft :=
  if 1 < pieces.length ∧ options.multiline = false then .declined
  else .within capacity (draft.text.length + joinedLength pieces) (draft.pasted pieces)

/-- When Enter is accepted, and with which draft. -/
theorem enter_eq_accepted {options : Options κ} {capacity : Nat} {draft target : Draft} :
    draft.enter options capacity = .accepted target ↔
      options.multiline = true ∧
        draft.text.length +
          (separatorLength + draft.level options * options.indentUnit.length) ≤ capacity ∧
        draft.entered options = target := by
  unfold enter
  split
  · rename_i multiline
    rw [Verdict.within_eq_accepted, and_iff_right multiline]
  · rename_i single
    exact iff_of_false nofun fun all => single all.1

/-- When a paste is accepted, and with which draft. -/
theorem paste_eq_accepted {options : Options κ} {capacity : Nat} {draft target : Draft}
    {pieces : List (List Char)} :
    draft.paste options capacity pieces = .accepted target ↔
      (1 < pieces.length → options.multiline = true) ∧
        draft.text.length + joinedLength pieces ≤ capacity ∧ draft.pasted pieces = target := by
  unfold paste
  split
  · rename_i single
    refine iff_of_false nofun fun all => ?_
    exact Bool.false_ne_true (single.2.symm.trans (all.1 single.1))
  · rename_i allowed
    have multiline : 1 < pieces.length → options.multiline = true :=
      fun more => eq_true_of_ne_false fun single => allowed ⟨more, single⟩
    rw [Verdict.within_eq_accepted, and_iff_right multiline]

/-- Pasting an empty text is accepted and does nothing. -/
theorem paste_empty (options : Options κ) {capacity : Nat} {draft : Draft}
    (fits : draft.text.length ≤ capacity) :
    draft.paste options capacity [[]] = .accepted draft := by
  simp [paste, Verdict.within, joinedLength, pasted, streamed, fits]

@[simp]
theorem length_indentation (options : Options κ) (count : Nat) :
    (indentation options count).length = count * options.indentUnit.length := by
  simp [indentation]

theorem indentUnit_unbroken (unit : IndentUnit) : Unbroken unit.chars := by
  intro char member
  cases unit with
  | tab =>
      rw [List.mem_singleton.mp member]
      rfl
  | spaces count =>
      rw [List.eq_of_mem_replicate member]
      rfl

theorem indentation_unbroken (options : Options κ) (count : Nat) :
    Unbroken (indentation options count) := by
  intro char member
  obtain ⟨unit, inUnits, here⟩ := List.mem_flatten.mp member
  rw [List.eq_of_mem_replicate inUnits] at here
  exact indentUnit_unbroken options.indentUnit char here

/-- The blanks on the left of the caret are those before both the caret and the
end of the line's indentation. -/
theorem takeWhile_before (draft : Draft) :
    draft.current.take (min draft.column (leadingBlanks draft.current)) =
      draft.before.takeWhile isBlank := by
  unfold current column
  rw [← List.take_take, take_leadingBlanks, List.takeWhile_append]
  split
  · rename_i whole
    rw [List.take_left]
    exact ((List.takeWhile_prefix isBlank).eq_of_length whole).symm
  · exact List.take_of_length_le (List.takeWhile_prefix isBlank).length_le

/-! ## What edits ask for -/

/-- Enter repeats no more units than there are characters. -/
theorem level_le_length (options : Options κ) (draft : Draft) :
    draft.level options ≤ draft.text.length := by
  have inText : draft.before.length ≤ draft.text.length := by
    rw [text_eq, leading]
    simp only [List.length_append]
    omega
  unfold level
  split
  · have units := indentUnits_le_length options.tabSize (draft.before.takeWhile isBlank)
    have blanks := (List.takeWhile_prefix (l := draft.before) isBlank).length_le
    omega
  · exact Nat.zero_le _

theorem atMost_enter (options : Options κ) (capacity : Nat) (draft : Draft) :
    (draft.enter options capacity).AtMost
      (draft.text.length + separatorLength +
        (draft.text.length + 1) * options.indentUnit.length) := by
  unfold enter
  split
  · apply Verdict.atMost_within
    have units := Nat.mul_le_mul_right options.indentUnit.length (draft.level_le_length options)
    rw [Nat.succ_mul]
    omega
  · trivial

theorem atMost_type {capacity most : Nat} {draft : Draft} {run : List Char}
    (bounded : draft.text.length + run.length ≤ most) :
    (draft.type capacity run).AtMost most :=
  Verdict.atMost_within bounded

/-- A step back asks for nothing. -/
theorem atMost_stepBack (options : Options κ) (most : Nat) (draft : Draft) :
    (draft.stepBack options).AtMost most := by
  unfold stepBack eraseChar
  split
  · trivial
  · split
    · trivial
    · split <;> trivial

theorem atMost_paste (options : Options κ) (capacity : Nat) (draft : Draft)
    (pieces : List (List Char)) :
    (draft.paste options capacity pieces).AtMost (draft.text.length + joinedLength pieces) := by
  unfold paste
  split
  · trivial
  · exact Verdict.atMost_within (Nat.le_refl _)

end Draft

end EditorCore
