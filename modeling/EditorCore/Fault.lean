/-!
Contract: the calls that cannot be carried out at all, and checked counting.

Owns:
- `Fault`, the broken promises that stop a call before it has a result;
- `Checked`, a value or the fault that stopped it;
- counting with machine words: the largest word, sums and differences that are
  refused when they leave the words, shifts that stop at their ends, and the
  longest text.

Does not own: refusals.  A refusal is an answer of the editor and leaves it
usable; a fault ends the run.
-/

namespace EditorCore

/-- A promise that a caller, or the editor itself, has broken. -/
inductive Fault where
  /-- A count would pass the largest word. -/
  | countTooLarge
  /-- A count would fall below zero. -/
  | countBelowZero
  /-- A line index is not in the table. -/
  | noSuchLine
  /-- An insertion offset lies past the end of the text. -/
  | offsetPastEnd
  /-- An offset lies outside the line that it is used on. -/
  | outsideLine
  /-- The first line has no line before it to be folded into. -/
  | nothingAbove
  /-- The lines do not tile the text. -/
  | brokenTable
  /-- A range of lines ends before it starts. -/
  | reversedRange
  /-- A unit of indentation has more characters than memory can hold. -/
  | unitTooLong
deriving DecidableEq, Repr

/-- The outcome of a computation that a fault may stop. -/
abbrev Checked (α : Type) := Except Fault α

instance decidableEqExcept {ε α : Type} [DecidableEq ε] [DecidableEq α] :
    DecidableEq (Except ε α)
  | .ok first, .ok second => decidable_of_iff (first = second) ⟨congrArg Except.ok, Except.ok.inj⟩
  | .error first, .error second =>
      decidable_of_iff (first = second) ⟨congrArg Except.error, Except.error.inj⟩
  | .ok _, .error _ => isFalse nofun
  | .error _, .ok _ => isFalse nofun

/-- A computation that goes through goes through step by step. -/
theorem exists_of_bind {ε α β : Type} {first : Except ε α} {later : α → Except ε β}
    {result : β} (goes : first >>= later = .ok result) :
    ∃ value, first = .ok value ∧ later value = .ok result := by
  cases first with
  | error cause => cases goes
  | ok value => exact ⟨value, rfl, goes⟩

/-- What an error is reported as makes no difference to a result. -/
theorem eq_ok_of_mapError {ε δ α : Type} {outcome : Except ε α} {report : ε → δ} {value : α}
    (goes : outcome.mapError report = .ok value) : outcome = .ok value := by
  cases outcome with
  | error cause => cases goes
  | ok held => exact congrArg Except.ok (Except.ok.inj goes)

theorem eq_ok_of_toOption {ε α : Type} {outcome : Except ε α} {value : α}
    (gives : outcome.toOption = some value) : outcome = .ok value := by
  cases outcome with
  | error cause => cases gives
  | ok held => exact congrArg Except.ok (Option.some.inj gives)

/-- An outcome with a known result. -/
theorem exists_of_result {ε α β : Type} [DecidableEq β] {outcome : Except ε (α × β)} {result : β}
    (ends : outcome.toOption.any (fun pair => decide (pair.2 = result)) = true) :
    ∃ value, outcome = .ok (value, result) := by
  obtain ⟨⟨value, other⟩, found, same⟩ := (Option.any_eq_true _ _).mp ends
  obtain rfl : other = result := of_decide_eq_true same
  exact ⟨value, eq_ok_of_toOption found⟩

namespace Word

/-- The largest count that a machine word holds. -/
def largest : Nat := UInt64.size - 1

/-- The most characters that memory can hold.  A character takes four bytes, and
the bytes of one text are counted by a signed word. -/
def longestText : Nat := (UInt64.size / 2 - 1) / 4

/-- The sum of two counts, as long as a word holds it. -/
def add (left right : Nat) : Checked Nat :=
  if left + right ≤ largest then .ok (left + right) else .error .countTooLarge

/-- The difference of two counts, as long as it is not negative. -/
def sub (left right : Nat) : Checked Nat :=
  if right ≤ left then .ok (left - right) else .error .countBelowZero

/-- A count moved by a signed distance, stopping at zero and at the largest
word. -/
def shift (count : Nat) (distance : Int) : Nat :=
  min (count + distance).toNat largest

theorem add_of_le {left right : Nat} (fits : left + right ≤ largest) :
    add left right = .ok (left + right) :=
  if_pos fits

theorem sub_of_le {left right : Nat} (below : right ≤ left) :
    sub left right = .ok (left - right) :=
  if_pos below

/-- Inside the words, moving forward is addition. -/
theorem shift_ofNat {count distance : Nat} (fits : count + distance ≤ largest) :
    shift count (distance : Int) = count + distance := by
  unfold shift
  omega

/-- Inside the words, moving back is subtraction. -/
theorem shift_neg_ofNat {count distance : Nat} (fits : count ≤ largest) :
    shift count (-(distance : Int)) = count - distance := by
  unfold shift
  omega

end Word

end EditorCore
