import EditorCore.Decimal.Notation
import EditorCore.Workspace

/-!
Contract: a document as the program shows it.

Owns:
- the listing: the caret's place, and each line with its tokens below it;
- the JSON form of the same.

Does not own: which document is shown.
-/

namespace EditorCore.CommandLine

/-! ## Listings -/

def tokenText {κ : Type} (token : Token κ) : String :=
  token.kind.name ++ "[" ++ toString token.start ++ ".." ++ toString token.stop ++ ")"

/-- A number of at least four places, filled up with spaces. -/
def lineNumber (number : Nat) : String :=
  let digits := toString number
  "".pushn ' ' (4 - digits.length) ++ digits

/-- A line with its number, and its tokens below if it has any. -/
def lineText {κ : Type} (editor : Editor κ) (index : Nat) (line : Line κ) : String :=
  let own := lineNumber (index + 1) ++ " | " ++ String.ofList (editor.charsOf line) ++ "\n"
  if line.tokens.isEmpty then own
  else own ++ "     | " ++ " ".intercalate (line.tokens.map tokenText) ++ "\n"

/-- A document as a listing: its name and the caret's place, counted from one,
and all lines. -/
def listing {κ : Type} (name : String) (editor : Editor κ) : Checked String := do
  let (line, column) ← (← editor.position).display
  let head := name ++ " Ln " ++ toString line ++ ", Col " ++ toString column ++ "\n"
  return head ++ "".intercalate (editor.lines.lines.mapIdx (lineText editor))

/-! ## JSON -/

/-- The hexadecimal digits of a control character. -/
def controlDigits (char : Char) : List Char :=
  let digits := Nat.toDigits 16 char.toNat
  List.replicate (4 - digits.length) '0' ++ digits

/-- The letters that stand for characters after a backslash. -/
def jsonEscapes : List (Char × Char) := [
  ('"', '"'), ('\\', '\\'), ('\x08', 'b'), ('\t', 't'), ('\n', 'n'), ('\x0c', 'f'), ('\r', 'r')]

def jsonChar (char : Char) : List Char :=
  match jsonEscapes.lookup char with
  | some letter => ['\\', letter]
  | none => if char < ' ' then '\\' :: 'u' :: controlDigits char else [char]

def jsonText (text : List Char) : String :=
  "\"" ++ String.ofList (text.flatMap jsonChar) ++ "\""

/-- A float in JSON, which has no infinity and nothing that is no number. -/
def jsonFloat (value : Float32) : String :=
  if value.isFinite then finiteText value else "null"

/-- A line break and the indentation at a depth. -/
def newLine (depth : Nat) : String := "\n" ++ "".pushn ' ' (2 * depth)

/-- Members in brackets, each on lines of its own. -/
def bracketed (opening closing : String) (depth : Nat) (members : List String) : String :=
  if members.isEmpty then opening ++ closing
  else
    let body := ",".intercalate (members.map fun member => newLine (depth + 1) ++ member)
    opening ++ body ++ newLine depth ++ closing

def jsonList (depth : Nat) (items : List String) : String :=
  bracketed "[" "]" depth items

def jsonObject (depth : Nat) (fields : List (String × String)) : String :=
  bracketed "\x7b" "\x7d" depth <|
    fields.map fun (name, value) => jsonText name.toList ++ ": " ++ value

def jsonToken (token : Token Float32) : String :=
  jsonObject 4 [
    ("kind", jsonText token.kind.name.toList), ("start", toString token.start),
    ("end", toString token.stop), ("width", jsonFloat token.width)]

def jsonLine (editor : Editor Float32) (line : Line Float32) : String :=
  jsonObject 2 [
    ("index", toString line.index), ("start", toString line.start),
    ("end", toString line.stop), ("text", jsonText (editor.charsOf line)),
    ("tokens", jsonList 3 (line.tokens.map jsonToken))]

/-- A document in JSON: its name, the caret's place, counted from zero, and all
lines. -/
def jsonDump (name : String) (editor : Editor Float32) : Checked String := do
  let place ← editor.position
  return jsonObject 0 [
    ("name", jsonText name.toList), ("line", toString place.line),
    ("column", toString place.column),
    ("lines", jsonList 1 (editor.lines.lines.map (jsonLine editor)))] ++ "\n"

end EditorCore.CommandLine
