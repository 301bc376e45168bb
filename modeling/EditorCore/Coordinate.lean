/-!
Contract: the numbers that measure the page.

Owns:
- `Coordinate`, the operations that placing lines and glyphs needs;
- single-precision floats as coordinates, the ones that hosts work with.

Does not own: any law of arithmetic.  Floats round, and the editor's answers
depend on the order of its sums; exact coordinates satisfy more, and a
statement that needs a law names the coordinates it holds for.
-/

namespace EditorCore

/-- Numbers to measure a page with. -/
class Coordinate (κ : Type) extends Zero κ, Add κ, Sub κ, Mul κ, Div κ where
  ofCount : Nat → κ
  /-- The whole units below a value: none for a value that is not positive or
  is no number, and the largest word for one beyond the words. -/
  wholeUnits : κ → Nat
  /-- The first value is not past the second; no number is past or before
  any. -/
  atMost : κ → κ → Bool
  before : κ → κ → Bool

namespace Coordinate

/-- The value itself when it is at least zero, and zero otherwise. -/
def clampToZero {κ : Type} [Coordinate κ] (value : κ) : κ :=
  if atMost 0 value then value else 0

/-- The whole units below a float.  No number has none, and a float past the
words stops at the largest. -/
def wholeUnitsOfFloat (value : Float32) : Nat :=
  if value.floor ≤ 0 then 0 else value.floor.toUInt64.toNat

end Coordinate

/-- Hosts measure in single precision.  A count is rounded to the nearest
float, a tie to the even one. -/
instance : Coordinate Float32 where
  zero := 0
  ofCount count := count.toUInt64.toFloat32
  wholeUnits := Coordinate.wholeUnitsOfFloat
  atMost left right := decide (left ≤ right)
  before left right := decide (left < right)

end EditorCore
