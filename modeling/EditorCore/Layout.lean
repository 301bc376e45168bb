import EditorCore.Coordinate

/-!
Contract: where lines stand on the page.

Owns:
- `Layout`, the corner of the text area and the distance between lines;
- the top edge of a line's slot, and the slot that a height falls into.

Does not own: how wide text is.
-/

namespace EditorCore

/-- The vertical placement of lines. -/
structure Layout (κ : Type) where
  originX : κ
  originY : κ
  lineHeight : κ
deriving Repr

namespace Layout

variable {κ : Type} [Coordinate κ]

/-- The placement of a table that no host has placed: at the corner, twelve
units a line. -/
def standard : Layout κ :=
  { originX := 0, originY := 0, lineHeight := Coordinate.ofCount 12 }

/-- The top edge of a line's slot. -/
def lineOrigin (layout : Layout κ) (index : Nat) : κ :=
  layout.originY + Coordinate.ofCount index * layout.lineHeight

/-- The slot that a height falls into, clamped to the lines there are.  Slots
without a height all count as the first. -/
def lineAtY (layout : Layout κ) (count : Nat) (y : κ) : Nat :=
  if count = 0 ∨ Coordinate.atMost layout.lineHeight 0 then 0
  else min (Coordinate.wholeUnits ((y - layout.originY) / layout.lineHeight)) (count - 1)

end Layout

end EditorCore
