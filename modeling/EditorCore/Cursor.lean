import EditorCore.Coordinate
import EditorCore.Fault

/-!
Contract: positions and the insertion point.

Owns:
- `Position`, a line and a column, its order and its display form;
- `Cursor`, the caret with what is cached about it, and the remembered column
  of vertical movement.

Does not own: the lines that an index refers to.
-/

namespace EditorCore

/-- A line and a column, both counted from zero. -/
structure Position where
  line : Nat
  column : Nat
deriving DecidableEq, Repr

namespace Position

def zero : Position := { line := 0, column := 0 }

/-- Positions are ordered by line, then by column. -/
def compare (left right : Position) : Ordering :=
  (Ord.compare left.line right.line).then (Ord.compare left.column right.column)

/-- Status displays count lines and columns from one. -/
def display (position : Position) : Checked (Nat × Nat) := do
  return (← Word.add position.line 1, ← Word.add position.column 1)

end Position

/-- The insertion point. -/
structure Cursor (κ : Type) where
  caret : Nat
  line : Nat
  /-- The indent units that the caret's line starts with. -/
  indentLevel : Nat
  /-- The distance of the caret from the line's left edge. -/
  x : κ
  /-- The column that vertical movement tries to return to. -/
  desiredColumn : Option Nat
deriving DecidableEq, Repr

namespace Cursor

variable {κ : Type}

/-- A cursor with an offset and a line, nothing else being known about it. -/
def ofOffset [Coordinate κ] (caret line : Nat) : Cursor κ :=
  { caret, line, indentLevel := 0, x := 0, desiredColumn := none }

def clearDesired (cursor : Cursor κ) : Cursor κ := { cursor with desiredColumn := none }

/-- Remember a column, unless one is remembered already. -/
def setDesired (cursor : Cursor κ) (column : Nat) : Cursor κ :=
  { cursor with desiredColumn := some (cursor.desiredColumn.getD column) }

/-- The remembered column, or the given one when none is. -/
def effectiveColumn (cursor : Cursor κ) (column : Nat) : Nat :=
  cursor.desiredColumn.getD column

end Cursor

end EditorCore
