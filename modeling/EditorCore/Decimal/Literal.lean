/-!
Contract: decimal numbers read from text.

Owns:
- `Literal`, a sign, digits and a power of ten, and the grammar it is read by;
- the nearest double-precision float to a literal.

Does not own: names for infinity or for no number, which formats spell in
their own ways.
-/

namespace EditorCore

/-- A decimal number as written, `± digits * 10 ^ exponent`. -/
structure Literal where
  negative : Bool
  digits : Nat
  exponent : Int
deriving DecidableEq, Repr

namespace Literal

/-- The number that decimal digits spell. -/
def natOfDigits (digits : List Char) : Nat :=
  digits.foldl (fun value digit => value * 10 + (digit.toNat - '0'.toNat)) 0

/-- An exponent after its letter: digits with or without a sign. -/
def exponent? (text : List Char) : Option Int :=
  let (negative, digits) := match text with
    | '-' :: rest => (true, rest)
    | '+' :: rest => (false, rest)
    | rest => (false, rest)
  if digits ≠ [] ∧ digits.all Char.isDigit then
    let size := Int.ofNat (natOfDigits digits)
    some (if negative then -size else size)
  else none

/-- Digits with or without a point and an exponent.  There is a digit before
the exponent, on either side of the point. -/
def magnitude? (text : List Char) : Option (Nat × Int) := do
  let whole := text.takeWhile Char.isDigit
  let (fraction, rest) := match text.dropWhile Char.isDigit with
    | '.' :: after => (after.takeWhile Char.isDigit, after.dropWhile Char.isDigit)
    | after => ([], after)
  if whole = [] ∧ fraction = [] then none
  else
    let power ← match rest with
      | [] => some 0
      | mark :: after => if mark = 'e' ∨ mark = 'E' then exponent? after else none
    return (natOfDigits (whole ++ fraction), power - Int.ofNat fraction.length)

/-- A decimal number with or without a sign. -/
def read? (text : List Char) : Option Literal := do
  let (negative, size) := match text with
    | '-' :: rest => (true, rest)
    | '+' :: rest => (false, rest)
    | rest => (false, rest)
  let (digits, exponent) ← magnitude? size
  return { negative, digits, exponent }

/-- The size of a literal as a float.  A number with its first digit beyond the
largest float, or below the smallest, is not expanded. -/
def sizeToFloat (literal : Literal) : Float :=
  let reach := Int.ofNat (Nat.toDigits 10 literal.digits).length + literal.exponent
  if literal.digits = 0 ∨ reach < -330 then 0.0
  else if 310 < reach then 1.0 / 0.0
  else if literal.exponent < 0 then
    Float.ofScientific literal.digits true literal.exponent.natAbs
  else Float.ofScientific literal.digits false literal.exponent.natAbs

def toFloat (literal : Literal) : Float :=
  if literal.negative then -literal.sizeToFloat else literal.sizeToFloat

end Literal

end EditorCore
