import EditorCore.Fault

/-!
Contract: what one step of indentation is made of.

Owns:
- `IndentUnit`, a tab or a number of spaces, and never nothing;
- its characters and their number, which is known without writing them out;
- when a unit is too long for memory.

Does not own: the choice of a unit.
-/

namespace EditorCore

/-- One step of indentation.  No spaces count as one. -/
inductive IndentUnit where
  | tab
  | spaces (count : Nat)
deriving DecidableEq, Repr

namespace IndentUnit

def length : IndentUnit → Nat
  | tab => 1
  | spaces count => max count 1

def chars : IndentUnit → List Char
  | tab => ['\t']
  | spaces count => List.replicate (max count 1) ' '

/-- Refuse a unit that memory cannot hold. -/
def ensureHeld (unit : IndentUnit) : Checked Unit :=
  if unit.length ≤ Word.longestText then .ok () else .error .unitTooLong

@[simp]
theorem length_chars (unit : IndentUnit) : unit.chars.length = unit.length := by
  cases unit <;> simp [chars, length]

/-- A unit is never empty. -/
theorem length_pos (unit : IndentUnit) : 0 < unit.length := by
  cases unit <;> simp only [length] <;> omega

end IndentUnit

end EditorCore
