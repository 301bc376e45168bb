import EditorCore.Decimal.Shortest

/-!
Contract: floats as text.

Owns: the layout of shortest digits: where the point goes, when an exponent is
written instead, and the texts of zero.

Does not own: which digits are written, or the texts of values that are not
finite, which differ between formats.
-/

namespace EditorCore

namespace Decimal

def zeros (count : Nat) : String := "".pushn '0' count

/-- Digits with the point after some of them. -/
def pointed (digits : List Char) (position : Nat) : String :=
  String.ofList (digits.take position) ++ "." ++ String.ofList (digits.drop position)

/-- A decimal in positional form from `0.00001` up to thirteen whole digits,
always with a digit after the point; beyond, in exponent form. -/
def text (decimal : Decimal) : String :=
  let digits := (toString decimal.digits).toList
  let point := (digits.length : Int) + decimal.exponent
  if 0 ≤ decimal.exponent ∧ point ≤ 13 then
    String.ofList digits ++ zeros decimal.exponent.toNat ++ ".0"
  else if 0 < point ∧ point ≤ 13 then pointed digits point.toNat
  else if -6 < point ∧ point ≤ 0 then
    "0." ++ zeros (-point).toNat ++ String.ofList digits
  else
    let mantissa := if digits.length = 1 then String.ofList digits else pointed digits 1
    mantissa ++ "e" ++ toString (point - 1)

end Decimal

def finiteText (value : Float32) : String :=
  let bits := value.toBits
  let sign := if Nat.pow 2 31 ≤ bits.toNat then "-" else ""
  let size := if bits.toNat % Nat.pow 2 31 = 0 then "0.0"
    else (Magnitude.ofBits bits).shortest.text
  sign ++ size

end EditorCore
