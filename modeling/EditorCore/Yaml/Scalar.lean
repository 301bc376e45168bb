import EditorCore.Decimal.Literal
import EditorCore.Fault

/-!
Contract: what an unquoted scalar of a settings file means.

Owns: the spellings of nothing, of truth values, of whole numbers and of
floats, and whether a text would be taken for one of them.

Does not own: quoted scalars, which are always text.
-/

namespace EditorCore.Yaml

/-! ## Nothing and truth -/

/-- The spellings of nothing; an empty scalar is one. -/
def isNull (text : List Char) : Bool :=
  ["", "null", "Null", "NULL", "~"].contains (String.ofList text)

def bool? (text : List Char) : Option Bool :=
  if ["true", "True", "TRUE"].contains (String.ofList text) then some true
  else if ["false", "False", "FALSE"].contains (String.ofList text) then some false
  else none

/-! ## Whole numbers -/

/-- The value of a digit in bases up to sixteen. -/
def digitValue? (char : Char) : Option Nat :=
  if char.isDigit then some (char.toNat - '0'.toNat)
  else if 'a' ≤ char ∧ char ≤ 'f' then some (char.toNat - 'a'.toNat + 10)
  else if 'A' ≤ char ∧ char ≤ 'F' then some (char.toNat - 'A'.toNat + 10)
  else none

/-- The number that digits of a base spell; there is at least one. -/
def natInBase? (base : Nat) (digits : List Char) : Option Nat :=
  if digits = [] then none
  else digits.foldlM (fun value char => do
    let digit ← digitValue? char
    if digit < base then some (value * base + digit) else none) 0

/-- Digits behind a prefix for their base, or plain decimal ones. -/
def based? (text : List Char) : Option Nat :=
  match text with
  | '0' :: 'x' :: digits => natInBase? 16 digits
  | '0' :: 'o' :: digits => natInBase? 8 digits
  | '0' :: 'b' :: digits => natInBase? 2 digits
  | digits => natInBase? 10 digits

/-- Decimal digits that start with a zero and go on are no number but text. -/
def isPaddedDigits (text : List Char) : Bool :=
  let digits := match text with
    | '-' :: rest => rest
    | '+' :: rest => rest
    | rest => rest
  match digits with
  | '0' :: more => more ≠ [] && more.all Char.isDigit
  | _ => false

def int? (text : List Char) : Option Int :=
  if isPaddedDigits text then none
  else match text with
    | '-' :: size => (based? size).map fun value => -Int.ofNat value
    | '+' :: size => (based? size).map Int.ofNat
    | size => (based? size).map Int.ofNat

/-- The count that a text spells, if a word holds it.  A text with a minus spells
none, not even that of zero. -/
def word? (text : List Char) : Option Nat := do
  let value ← int? text
  if text.head? ≠ some '-' ∧ value ≤ Int.ofNat Word.largest then some value.toNat else none

/-! ## Floats -/

/-- The spellings of infinity behind an optional sign. -/
def isInfinity (text : List Char) : Bool :=
  [".inf", ".Inf", ".INF"].contains (String.ofList text)

/-- The spellings of no number. -/
def isNotANumber (text : List Char) : Bool :=
  [".nan", ".NaN", ".NAN"].contains (String.ofList text)

/-- A text without the plus that numbers may start with. -/
def withoutPlus : List Char → List Char
  | '+' :: rest => rest
  | text => text

/-- The float that a text spells.  A decimal that is too large for a float is
no number. -/
def float? (text : List Char) : Option Float :=
  if isNotANumber text then some (0.0 / 0.0)
  else if isInfinity (withoutPlus text) then some (1.0 / 0.0)
  else match text with
    | '+' :: '+' :: _ | '+' :: '-' :: _ => none
    | '-' :: rest =>
        if isInfinity rest then some (-1.0 / 0.0) else decimal? text
    | _ => decimal? text
where
  decimal? (text : List Char) : Option Float := do
    let value := (← Literal.read? text).toFloat
    if value.isFinite then some value else none

/-- Whether a text would not be read as text without quotes. -/
def isAmbiguous (text : List Char) : Bool :=
  isNull text || (bool? text).isSome || isPaddedDigits text || (float? text).isSome ||
    match int? text with
    | some value => -Int.ofNat (Nat.pow 2 127) ≤ value && value < Int.ofNat (Nat.pow 2 128)
    | none => false

end EditorCore.Yaml
