import EditorCore.Decimal.Notation
import EditorCore.Yaml.Scalar
import EditorCore.Yaml.Spot

/-!
Contract: scalars as they are written in a list of a settings file.

Owns:
- the style of a text: without quotes where it reads back as that text, in a
  block where it has several lines, and in quotes otherwise;
- each style's form, at the indentation of a list's items.

Does not own: which entries a file has.
-/

namespace EditorCore.Yaml

/-! ## What a style can hold -/

/-- Two neighbours of which the first is of one class and the second of
another. -/
def hasPair (first second : Char → Bool) (text : List Char) : Bool :=
  (text.zip text.tail).any fun (left, right) => first left && second right

/-- Whether a character is a space. -/
def isSpaceChar (char : Char) : Bool := char = ' '

/-- Whether all characters can be written as they are, and no space stands in
front of a break. -/
def isWritable (text : List Char) : Bool :=
  text.all isPrintable && !hasPair isSpaceChar endsLine text

/-- Characters that no text without quotes starts with. -/
def leadingIndicators : List Char :=
  ['#', ',', '[', ']', '{', '}', '&', '*', '!', '|', '>', '\'', '"', '%', '@', Char.ofNat 0x60]

/-- Whether a text would be taken for more than a scalar without quotes. -/
def hasIndicator (text : List Char) : Bool :=
  let marked := ["---", "..."].contains (String.ofList (text.take 3))
  let leading := match text with
    | [] => false
    | first :: rest =>
        leadingIndicators.contains first ||
          (['?', ':', '-'].contains first && rest.head?.all isGap)
  marked || leading || hasPair (· = ':') isGap text || text.getLast? = some ':' ||
    hasPair isGap (· = '#') text

/-- Whether a text reads back without quotes. -/
def allowsPlain (text : List Char) : Bool :=
  text.all isPrintable && !text.any endsLine && !text.head?.any isSpaceChar &&
    !text.getLast?.any isSpaceChar && !hasIndicator text

/-- Whether a text reads back in single quotes. -/
def allowsSingle (text : List Char) : Bool :=
  isWritable text && !hasPair endsLine isSpaceChar text

/-- Whether a text reads back as a block. -/
def allowsBlock (text : List Char) : Bool :=
  isWritable text && !text.getLast?.any isSpaceChar

/-! ## Forms -/

/-- The indentation of what belongs to a list's item. -/
def itemIndent : List Char := [' ', ' ']

/-- The inside of single quotes: a quote is written twice, and so is the first
LF of several breaks; what follows breaks is indented. -/
def singleBody : (afterBreak : Bool) → List Char → List Char
  | afterBreak, [] => if afterBreak then itemIndent else []
  | afterBreak, char :: rest =>
      if endsLine char then
        (if !afterBreak && char = '\n' then ['\n'] else []) ++ char :: singleBody true rest
      else
        (if afterBreak then itemIndent else []) ++
          (if char = '\'' then ['\'', '\''] else [char]) ++ singleBody false rest

def inSingleQuotes (text : List Char) : List Char :=
  '\'' :: singleBody false text ++ ['\'']

/-- The letters that stand for characters after a backslash. -/
def writtenEscapes : List (Char × Char) := [
  ('\x00', '0'), ('\x07', 'a'), ('\x08', 'b'), ('\t', 't'), ('\n', 'n'), ('\x0b', 'v'),
  ('\x0c', 'f'), ('\r', 'r'), ('\x1b', 'e'), ('"', '"'), ('\\', '\\'),
  (Char.ofNat 0x85, 'N'), (Char.ofNat 0xA0, '_'), (Char.ofNat 0x2028, 'L'),
  (Char.ofNat 0x2029, 'P')]

/-- So many hexadecimal digits of a number. -/
def hexDigits (count value : Nat) : List Char :=
  let digits := (Nat.toDigits 16 value).map Char.toUpper
  List.replicate (count - digits.length) '0' ++ digits

def escape (char : Char) : List Char :=
  '\\' :: match writtenEscapes.lookup char with
    | some letter => [letter]
    | none =>
        if char.toNat ≤ 0xFF then 'x' :: hexDigits 2 char.toNat
        else if char.toNat ≤ 0xFFFF then 'u' :: hexDigits 4 char.toNat
        else 'U' :: hexDigits 8 char.toNat

def inDoubleQuotes (text : List Char) : List Char :=
  let body := text.flatMap fun char =>
    if !isPrintable char || endsLine char || char = '"' || char = '\\' then escape char
    else [char]
  '"' :: body ++ ['"']

/-- The lines of a block, each with text on it indented. -/
def blockBody : (atStart : Bool) → List Char → List Char
  | _, [] => []
  | atStart, char :: rest =>
      if endsLine char then char :: blockBody true rest
      else (if atStart then itemIndent else []) ++ char :: blockBody false rest

/-- Whether all breaks at the end of a block have to be kept: there are
several, or there is nothing else. -/
def keepsBreaks (text : List Char) : Bool :=
  match text.reverse with
  | [last] => endsLine last
  | last :: before :: _ => endsLine last && endsLine before
  | [] => false

/-- What follows a block's indicator: the indentation if the text does not show
it, and which breaks at the end are kept. -/
def writtenHints (text : List Char) : List Char :=
  let indent := if text.head?.any fun char => isSpaceChar char || endsLine char then ['2'] else []
  let chomping := if !text.getLast?.any endsLine then ['-']
    else if keepsBreaks text then ['+'] else []
  indent ++ chomping

def asBlock (text : List Char) : List Char :=
  '|' :: writtenHints text ++ '\n' :: blockBody true text

/-! ## Items -/

/-- A form with a break at its end. -/
def endedLine (form : List Char) : List Char :=
  form ++ ['\n']

/-- A text in quotes, in single ones if it can be. -/
def inQuotes (text : List Char) : List Char :=
  if allowsSingle text then inSingleQuotes text else inDoubleQuotes text

def isBlock (text : List Char) : Bool :=
  text.contains '\n' && allowsBlock text

/-- A text as the rest of an item's line. -/
def writtenText (text : List Char) : List Char :=
  if isBlock text then
    let form := asBlock text
    if text.getLast?.any endsLine then form else endedLine form
  else if text.contains '\n' then endedLine (inDoubleQuotes text)
  else if isAmbiguous text || !allowsPlain text then endedLine (inQuotes text)
  else endedLine text

/-- A single character, always in quotes, as the rest of an item's line. -/
def writtenChar (char : Char) : List Char :=
  endedLine (inQuotes [char])

/-- A float, with names for infinity and for no number. -/
def writtenFloat (value : Float32) : List Char :=
  if value.isNaN then ".nan".toList
  else if value.isInf then (if value < 0 then "-.inf" else ".inf").toList
  else (finiteText value).toList

end EditorCore.Yaml
