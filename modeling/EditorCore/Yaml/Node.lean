import EditorCore.Yaml.Lexeme

/-!
Contract: a settings file as a tree.

Owns:
- nodes: scalars, sequences and mappings;
- how lexemes nest, and where an empty scalar is meant;
- `document?`, the one document of a file.

Does not own: what the entries of a mapping mean.
-/

namespace EditorCore.Yaml

/-- A part of a document. -/
inductive Node where
  | scalar (text : List Char) (isPlain : Bool)
  | sequence (items : List Node)
  | mapping (entries : List (Node × Node))

namespace Node

def empty : Node := .scalar [] true

mutual

/-- The node that lexemes start with, and the rest.  `inBlock` allows
structures made by indentation, `itemsInline` a list at its key's indentation. -/
def ofLexemes : Nat → (inBlock itemsInline : Bool) → List Lexeme → Option (Node × List Lexeme)
  | 0, _, _, _ => none
  | fuel + 1, inBlock, itemsInline, lexemes =>
      match lexemes with
      | .scalar text isPlain :: rest => some (.scalar text isPlain, rest)
      | .flowSequenceStart :: .flowSequenceEnd :: rest => some (.sequence [], rest)
      | .flowSequenceStart :: rest => do
          let (items, rest) ← flowItems fuel rest
          some (.sequence items, rest)
      | .flowMappingStart :: .flowMappingEnd :: rest => some (.mapping [], rest)
      | .flowMappingStart :: rest => do
          let (entries, rest) ← flowEntries fuel rest
          some (.mapping entries, rest)
      | .blockSequenceStart :: rest => do
          if !inBlock then none
          else
            let (items, rest) ← blockItems fuel true rest
            some (.sequence items, rest)
      | .blockMappingStart :: rest => do
          if !inBlock then none
          else
            let (entries, rest) ← blockEntries fuel rest
            some (.mapping entries, rest)
      | .blockItem :: _ => do
          if !itemsInline then none
          else
            let (items, rest) ← blockItems fuel false lexemes
            some (.sequence items, rest)
      | _ => none

/-- A node, or the empty scalar in front of a lexeme that ends its place. -/
def orEmpty : Nat → (inBlock itemsInline : Bool) → (ends : List Lexeme) → List Lexeme →
    Option (Node × List Lexeme)
  | 0, _, _, _, _ => none
  | fuel + 1, inBlock, itemsInline, ends, lexemes =>
      match lexemes with
      | next :: _ =>
          if ends.contains next then some (empty, lexemes)
          else ofLexemes fuel inBlock itemsInline lexemes
      | [] => none

/-- The items of a list made by indentation.  One at its key's indentation ends
with the first lexeme that is no item; any other has an end of its own. -/
def blockItems : Nat → (closed : Bool) → List Lexeme → Option (List Node × List Lexeme)
  | 0, _, _ => none
  | fuel + 1, closed, lexemes =>
      match lexemes with
      | .blockItem :: rest => do
          let ends := if closed then [.blockItem, .blockEnd]
            else [.blockItem, .key, .value, .blockEnd]
          let (item, rest) ← orEmpty fuel true false ends rest
          let (items, rest) ← blockItems fuel closed rest
          some (item :: items, rest)
      | .blockEnd :: rest => some ([], if closed then rest else lexemes)
      | _ => if closed then none else some ([], lexemes)

/-- The entries of a mapping made by indentation. -/
def blockEntries : Nat → List Lexeme → Option (List (Node × Node) × List Lexeme)
  | 0, _ => none
  | fuel + 1, lexemes =>
      match lexemes with
      | .key :: rest => do
          let ends := [.key, .value, .blockEnd]
          let (key, rest) ← orEmpty fuel true true ends rest
          let (value, rest) ← match rest with
            | .value :: rest => orEmpty fuel true true ends rest
            | _ => some (empty, rest)
          let (entries, rest) ← blockEntries fuel rest
          some ((key, value) :: entries, rest)
      | .blockEnd :: rest => some ([], rest)
      | _ => none

/-- The items up to a closing bracket.  A pair without braces is a mapping of
its own.  If its key is left out, the lexeme that stands in the key's place is
used up, whichever it is. -/
def flowItems : Nat → List Lexeme → Option (List Node × List Lexeme)
  | 0, _ => none
  | fuel + 1, lexemes => do
      let (item, rest) ← match lexemes with
        | .key :: rest => do
            let (key, rest) ← match rest with
              | .value :: rest => some (empty, rest)
              | .flowItem :: rest => some (empty, rest)
              | .flowSequenceEnd :: rest => some (empty, rest)
              | _ => ofLexemes fuel false false rest
            let (value, rest) ← match rest with
              | .value :: rest =>
                  orEmpty fuel false false [.flowItem, .flowSequenceEnd] rest
              | _ => some (empty, rest)
            some (.mapping [(key, value)], rest)
        | _ => ofLexemes fuel false false lexemes
      match rest with
      | .flowSequenceEnd :: rest => some ([item], rest)
      | .flowItem :: .flowSequenceEnd :: rest => some ([item], rest)
      | .flowItem :: rest => do
          let (items, rest) ← flowItems fuel rest
          some (item :: items, rest)
      | _ => none

/-- The entries up to a closing brace.  What is no key has an empty value. -/
def flowEntries : Nat → List Lexeme → Option (List (Node × Node) × List Lexeme)
  | 0, _ => none
  | fuel + 1, lexemes => do
      let (entry, rest) ← match lexemes with
        | .key :: rest => do
            let (key, rest) ← orEmpty fuel false false [.value, .flowItem, .flowMappingEnd] rest
            let (value, rest) ← match rest with
              | .value :: rest =>
                  orEmpty fuel false false [.flowItem, .flowMappingEnd] rest
              | _ => some (empty, rest)
            some ((key, value), rest)
        | _ => do
            let (key, rest) ← ofLexemes fuel false false lexemes
            some ((key, empty), rest)
      match rest with
      | .flowMappingEnd :: rest => some ([entry], rest)
      | .flowItem :: .flowMappingEnd :: rest => some ([entry], rest)
      | .flowItem :: rest => do
          let (entries, rest) ← flowEntries fuel rest
          some (entry :: entries, rest)
      | _ => none

end

/-- Enough levels for lexemes: each is reached through three at most. -/
def levels (lexemes : List Lexeme) : Nat :=
  3 * lexemes.length + 3

/-- The one document that lexemes make.  Without any, and between marks, it is
the empty scalar. -/
def document? (lexemes : List Lexeme) : Option Node := do
  let (node, rest) ← match lexemes with
    | [] => some (empty, [])
    | .documentStart :: rest =>
        match rest with
        | [] => some (empty, [])
        | .documentStart :: _ => none
        | .documentEnd :: _ => some (empty, rest)
        | _ => ofLexemes (levels lexemes) true false rest
    | _ => ofLexemes (levels lexemes) true false lexemes
  if rest.all (· == .documentEnd) then some node else none

def ofText? (text : List Char) : Option Node := do
  document? (← lexemes? text)

end Node

end EditorCore.Yaml
