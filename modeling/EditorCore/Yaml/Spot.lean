import EditorCore.Text.Blank

/-!
Contract: the characters of a settings file and the places that they stand at.

Owns:
- which characters a file may hold and which may be written without an escape;
- the breaks of a file, more than a document of the editor knows;
- `spots`, a text with the place of each character, its breaks made equal.

Does not own: what the characters mean.
-/

namespace EditorCore.Yaml

/-! ## Classes of characters -/

/-- The mark that may stand in front of a text to tell its encoding, and in front
of any of its lines. -/
def byteOrderMark : Char := Char.ofNat 0xFEFF

/-- Characters that a line of a file ends at. -/
def endsLine (char : Char) : Bool :=
  char = '\n' || char = '\r' || char = Char.ofNat 0x85 || char = Char.ofNat 0x2028 ||
    char = Char.ofNat 0x2029

/-- Blanks and the ends of lines. -/
def isGap (char : Char) : Bool :=
  isBlank char || endsLine char

/-- Characters that a file may hold: no control characters but tab, LF, CR and
the next-line character, and no noncharacters of the basic plane. -/
def isAllowed (char : Char) : Bool :=
  char = '\t' || char = '\n' || char = '\r' || char = Char.ofNat 0x85 ||
    (' ' ≤ char && char ≤ '~') || (0xA0 ≤ char.toNat && char.toNat ≤ 0xFFFD) ||
    0x10000 ≤ char.toNat

/-- Characters that are written as they are: those a file may hold, less the
controls other than LF and the byte order mark. -/
def isPrintable (char : Char) : Bool :=
  isAllowed char && char ≠ '\t' && char ≠ '\r' && char ≠ Char.ofNat 0x85 &&
    char ≠ byteOrderMark

/-! ## Places -/

/-- A character with the place that it stands at. -/
structure Spot where
  char : Char
  line : Nat
  /-- The characters in front of it on its line. -/
  column : Nat
  /-- The bytes in front of it in the whole text, as UTF-8. -/
  offset : Nat
deriving DecidableEq, Repr

/-- The text with one LF for every CR LF, CR, LF and next-line character. -/
def withPlainBreaks : List Char → List Char
  | [] => []
  | '\r' :: '\n' :: rest => '\n' :: withPlainBreaks rest
  | char :: rest =>
      (if char = '\r' ∨ char = Char.ofNat 0x85 then '\n' else char) :: withPlainBreaks rest

def placed (line column offset : Nat) : List Char → List Spot
  | [] => []
  | char :: rest =>
      ⟨char, line, column, offset⟩ ::
        if endsLine char then placed (line + 1) 0 (offset + char.utf8Size) rest
        else placed line (column + 1) (offset + char.utf8Size) rest

def spots (text : List Char) : List Spot :=
  placed 0 0 0 (withPlainBreaks text)

/-! ## What comes next -/

/-- A blank, a break or the end of the text comes next. -/
def atGap : List Spot → Bool
  | [] => true
  | spot :: _ => isGap spot.char

/-- One of the characters comes next. -/
def startsWithAny (chars : List Char) : List Spot → Bool
  | [] => false
  | spot :: _ => chars.contains spot.char

/-- Three of a character stand alone at the start of a line. -/
def startsWithMark (char : Char) : List Spot → Bool
  | first :: second :: third :: rest =>
      first.column = 0 && first.char = char && second.char = char && third.char = char &&
        atGap rest
  | _ => false

/-- A mark between documents comes next. -/
def atDocumentMark (text : List Spot) : Bool :=
  startsWithMark '-' text || startsWithMark '.' text

end EditorCore.Yaml
