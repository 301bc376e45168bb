import EditorCore.Coordinate

/-!
Contract: coloured spans of a line.

Owns:
- the lexical classes and their names;
- `Token`, a span counted from the start of its line, with its cached width;
- `TokenStream`, the tokens of a line, with their width together;
- the set of keywords.

Does not own: how a line is cut into tokens.
-/

namespace EditorCore

/-- The lexical class of a token. -/
inductive TokenKind where
  | newline
  | whitespace
  | keyword
  | identifier
  | number
  | symbol
deriving DecidableEq, Repr

namespace TokenKind

/-- The name of a class in listings. -/
def name : TokenKind → String
  | newline => "Newline"
  | whitespace => "Whitespace"
  | keyword => "Keyword"
  | identifier => "Identifier"
  | number => "Number"
  | symbol => "Symbol"

end TokenKind

/-- A span `[start, stop)` of a line, with the sum of its glyph advances. -/
structure Token (κ : Type) where
  kind : TokenKind
  start : Nat
  stop : Nat
  width : κ
deriving DecidableEq, Repr

namespace Token

def length {κ : Type} (token : Token κ) : Nat := token.stop - token.start

end Token

/-- The tokens of one line, in order. -/
abbrev TokenStream (κ : Type) := List (Token κ)

namespace TokenStream

variable {κ : Type}

/-- Drop all tokens. -/
def clear (_stream : TokenStream κ) : TokenStream κ := []

/-- Put a token behind the others. -/
def push (stream : TokenStream κ) (token : Token κ) : TokenStream κ := stream ++ [token]

/-- The widths of tokens added up from left to right. -/
def totalWidth [Coordinate κ] (stream : TokenStream κ) : κ :=
  stream.foldl (fun width token => width + token.width) 0

end TokenStream

/-- The words that count as keywords, each once. -/
structure KeywordSet where
  words : List String
deriving DecidableEq, Repr

namespace KeywordSet

/-- The set of the words of a list. -/
def ofList (words : List String) : KeywordSet := ⟨words.eraseDups⟩

def contains (keywords : KeywordSet) (word : String) : Bool :=
  keywords.words.contains word

def size (keywords : KeywordSet) : Nat := keywords.words.length

theorem contains_ofList {words : List String} {word : String} :
    (ofList words).contains word = true ↔ word ∈ words := by
  simp [contains, ofList]

end KeywordSet

end EditorCore
