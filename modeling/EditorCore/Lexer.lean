import EditorCore.GlyphMetrics
import EditorCore.Token
import EditorCore.Unicode.Alphabetic
import EditorCore.Unicode.Numeric

/-!
Contract: a line cut into tokens.

Owns:
- the classes of characters that start and continue a lexeme;
- `Lexer`, the keywords with the scratch word that lookups go through;
- `Lexer.relex`, which fills a line's stream anew: the lexemes from left to
  right as spans with widths, and a last token without width for the separator
  that follows the line.

Does not own: when a line has to be cut anew.
-/

namespace EditorCore

/-! ## Classes of characters -/

/-- White space that does not end the line. -/
def isSpace (char : Char) : Bool :=
  isWhiteSpace char && !isBreak char

/-- Letters and the underscore start a word. -/
def isWordStart (char : Char) : Bool :=
  isAlphabetic char || char = '_'

/-- Letters, numerals and the underscore continue a word. -/
def isWordPart (char : Char) : Bool :=
  isAlphabetic char || isNumeric char || char = '_'

/-- Plain letters, plain digits, the underscore and the point continue a
number, so that suffixes and fractions belong to it. -/
def isNumberPart (char : Char) : Bool :=
  char.isAlphanum || char = '_' || char = '.'

/-! ## Lexemes -/

/-- How many of the characters after the first belong to the same lexeme. -/
def Lexeme.extent (char : Char) (rest : List Char) : Nat :=
  if isBreak char then
    if char = '\r' ∧ rest.head? = some '\n' then 1 else 0
  else if isSpace char then (rest.takeWhile isSpace).length
  else if char.isDigit then (rest.takeWhile isNumberPart).length
  else if isWordStart char then (rest.takeWhile isWordPart).length
  else 0

/-- Words coloured when no other set is chosen: a small language's keywords and
the names of its built-in types. -/
def defaultKeywords : List String := [
  "type", "struct", "interface", "func", "go", "return", "bool", "uint", "uint8", "uint16",
  "uint32", "uint64", "int", "int8", "int16", "int32", "int64", "float64", "float32"]

/-- The token of the separator after a line of some length. -/
def separatorToken {κ : Type} [Coordinate κ] (length : Nat) : Token κ :=
  { kind := .newline, start := length, stop := length + separatorLength, width := 0 }

/-! ## The lexer -/

/-- What cuts lines into tokens.  The word that was looked up last stays behind:
its room is used again for the next one. -/
structure Lexer where
  keywords : KeywordSet
  word : String
deriving DecidableEq, Repr

namespace Lexer

/-- A lexer that has not looked any word up. -/
def ofKeywords (keywords : KeywordSet) : Lexer := { keywords, word := "" }

def setKeywords (lexer : Lexer) (words : List String) : Lexer :=
  { lexer with keywords := KeywordSet.ofList words }

def isKeyword (lexer : Lexer) (word : String) : Bool := lexer.keywords.contains word

/-- Look a word up in the set by way of the scratch word. -/
def lookUp (lexer : Lexer) (chars : List Char) : Lexer × TokenKind :=
  let cleared := { lexer with word := "" }
  let filled := { cleared with word := cleared.word ++ String.ofList chars }
  (filled, if filled.isKeyword filled.word then .keyword else .identifier)

/-- The class of a lexeme, decided by its first character and, for words, by
the keywords. -/
def classify (lexer : Lexer) (char : Char) (more : List Char) : Lexer × TokenKind :=
  if isBreak char then (lexer, .newline)
  else if isSpace char then (lexer, .whitespace)
  else if char.isDigit then (lexer, .number)
  else if isWordStart char then lexer.lookUp (char :: more)
  else (lexer, .symbol)

variable {κ : Type} [Coordinate κ]

/-- Push the lexemes of a text onto a stream, each as long as its class allows.
Breaks have no width; any other lexeme is as wide as its run. -/
def scan (metrics : GlyphMetrics κ) (size : κ) (lexer : Lexer) (stream : TokenStream κ)
    (start : Nat) : List Char → Lexer × TokenStream κ
  | [] => (lexer, stream)
  | char :: rest =>
      let more := rest.take (Lexeme.extent char rest)
      let (next, kind) := lexer.classify char more
      let stop := start + (char :: more).length
      let width := if kind = .newline then 0 else metrics.runWidth (char :: more) size
      scan metrics size next (stream.push { kind, start, stop, width }) stop
        (rest.drop (Lexeme.extent char rest))
termination_by text => text.length
decreasing_by
  simp only [List.length_drop, List.length_cons]
  omega

/-- Fill a stream anew with the tokens of a line, and with the separator's when
one follows. -/
def relex (lexer : Lexer) (stream : TokenStream κ) (text : List Char) (hasSeparator : Bool)
    (metrics : GlyphMetrics κ) (size : κ) : Lexer × TokenStream κ :=
  let (scanned, tokens) := lexer.scan metrics size stream.clear 0 text
  (scanned, if hasSeparator then tokens.push (separatorToken text.length) else tokens)

end Lexer

end EditorCore
