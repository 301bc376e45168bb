/-!
Contract: the fewest decimal digits that name a float.

Owns:
- `Magnitude`, a finite positive single-precision value as an exact product of
  a whole number and a power of two;
- the interval of decimals that round to such a value;
- `shortest`, the decimal of the fewest digits in that interval, and of those
  the one nearest to the value.

Does not own: signs, zero, values that are not finite, and how digits are laid
out.
-/

namespace EditorCore

/-- A positive float, `mantissa * 2 ^ exponent`. -/
structure Magnitude where
  mantissa : Nat
  exponent : Int
  /-- The float below is only half as far away as the one above. -/
  narrowBelow : Bool
deriving DecidableEq, Repr

/-- A decimal, `digits * 10 ^ exponent`. -/
structure Decimal where
  digits : Nat
  exponent : Int
deriving DecidableEq, Repr

namespace Magnitude

/-- The size of a finite float, its sign aside. -/
def ofBits (bits : UInt32) : Magnitude :=
  let field : Nat := bits.toNat / Nat.pow 2 23 % Nat.pow 2 8
  let fraction : Nat := bits.toNat % Nat.pow 2 23
  if field = 0 then { mantissa := fraction, exponent := -149, narrowBelow := false }
  else {
    mantissa := Nat.pow 2 23 + fraction
    exponent := Int.ofNat field - 150
    narrowBelow := fraction = 0 ∧ 1 < field }

/-- Compare `digits * 10 ^ power` with `count * 2 ^ binary` exactly. -/
def compareScaled (digits : Nat) (power : Int) (count : Nat) (binary : Int) : Ordering :=
  compare (digits * Nat.pow 10 power.toNat * Nat.pow 2 (-binary).toNat)
    (count * Nat.pow 2 binary.toNat * Nat.pow 10 (-power).toNat)

/-- Whether a decimal rounds to the float: it lies between the points halfway
to the two neighbours, and may be one of them when the mantissa is even. -/
def names (value : Magnitude) (decimal : Decimal) : Bool :=
  let low := 4 * value.mantissa - if value.narrowBelow then 1 else 2
  let high := 4 * value.mantissa + 2
  let closed := value.mantissa % 2 = 0
  let below := compareScaled decimal.digits decimal.exponent low (value.exponent - 2)
  let above := compareScaled decimal.digits decimal.exponent high (value.exponent - 2)
  (below = .gt || (closed && below = .eq)) && (above = .lt || (closed && above = .eq))

/-- The whole multiples of a power of ten below the value. -/
def floorAt (value : Magnitude) (power : Int) : Nat :=
  (value.mantissa * Nat.pow 2 value.exponent.toNat * Nat.pow 10 (-power).toNat) /
    (Nat.pow 2 (-value.exponent).toNat * Nat.pow 10 power.toNat)

/-- Of the two multiples of a power of ten around the value, the nearer one,
and at the same distance the even one. -/
def nearerAt (value : Magnitude) (power : Int) : Nat :=
  let digits := value.floorAt power
  match compareScaled (2 * digits + 1) power (2 * value.mantissa) value.exponent with
  | .lt => digits + 1
  | .gt => digits
  | .eq => if digits % 2 = 0 then digits else digits + 1

/-- A multiple of a power of ten that names the value, the nearer of two. -/
def namedAt (value : Magnitude) (power : Int) : Option Decimal :=
  let nearer := value.nearerAt power
  let other := if nearer = value.floorAt power then nearer + 1 else value.floorAt power
  if value.names { digits := nearer, exponent := power } then
    some { digits := nearer, exponent := power }
  else if value.names { digits := other, exponent := power } then
    some { digits := other, exponent := power }
  else none

/-- Powers of ten from one above every float down to one that is fine enough to
name any. -/
def powers : List Int := (List.range 90).map fun step => 39 - Int.ofNat step

/-- The name of the value on the coarsest grid that has one.  Past all grids
the exact value would be the answer; it is a multiple of the finest power of
ten that its power of two divides. -/
def shortest (value : Magnitude) : Decimal :=
  match powers.findSome? value.namedAt with
  | some decimal => decimal
  | none => {
      digits := value.mantissa * Nat.pow 2 value.exponent.toNat *
        Nat.pow 5 (-value.exponent).toNat
      exponent := min value.exponent 0 }

end Magnitude

end EditorCore
