/-!
Contract: line breaks and the pieces between them.

Owns:
- the three breaks, CR LF, a lone CR and a lone LF, and the style of a text;
- `segments`, a text cut at every break, and `joined`, its normalised form;
- the length of the normalised form, which capacity checks count;
- the change from the normalised separator to another style.

Does not own: the line table, which keeps spans instead of pieces.
-/

namespace EditorCore

/-- CR and LF end a line. -/
def isBreak (char : Char) : Bool :=
  char = '\r' || char = '\n'

/-- The separator that a document holds between two lines. -/
def separator : List Char := ['\r', '\n']

/-- The length of the separator. -/
def separatorLength : Nat := 2

/-! ## The style of a text -/

/-- A way to end a line. -/
inductive LineEnding where
  | crLf
  | lf
  | cr
deriving DecidableEq, Repr

namespace LineEnding

def chars : LineEnding → List Char
  | crLf => ['\r', '\n']
  | lf => ['\n']
  | cr => ['\r']

/-- The style of a text is that of its first break; a text without one has the
style of the separator. -/
def detect : List Char → LineEnding
  | [] => crLf
  | '\r' :: '\n' :: _ => crLf
  | '\r' :: _ => cr
  | '\n' :: _ => lf
  | _ :: rest => detect rest

end LineEnding

/-! ## Segments -/

/-- The text before the first break, and the segments after it.  A CR takes an
LF that follows it along. -/
def cutAtBreaks : List Char → List Char × List (List Char)
  | [] => ([], [])
  | '\r' :: '\n' :: rest =>
      let after := cutAtBreaks rest
      ([], after.1 :: after.2)
  | char :: rest =>
      let after := cutAtBreaks rest
      if isBreak char then ([], after.1 :: after.2) else (char :: after.1, after.2)

/-- The text cut at every break: one more segment than there are breaks. -/
def segments (text : List Char) : List (List Char) :=
  let cut := cutAtBreaks text
  cut.1 :: cut.2

/-- The length of segments once a separator stands between each two. -/
def joinedLength (pieces : List (List Char)) : Nat :=
  pieces.flatten.length + (pieces.length - 1) * separatorLength

/-- Segments with the separator between each two. -/
def joined (pieces : List (List Char)) : List Char :=
  separator.intercalate pieces

/-- Write another line ending for every separator. -/
def withEnding (ending : LineEnding) : List Char → List Char
  | [] => []
  | '\r' :: '\n' :: rest => ending.chars ++ withEnding ending rest
  | char :: rest => char :: withEnding ending rest

end EditorCore
