import EditorCore.Yaml.ScalarText

/-!
Contract: a settings file as lexemes.

Owns:
- the lexemes, which make the structure that indentation only implies explicit;
- keys that are recognised late: a colon turns what stands before it on its
  line into a key, and puts the start of a mapping in front of it;
- where keys, values and list items may start.

Does not own: how lexemes nest.

Anchors, aliases, tags and directives are refused.
-/

namespace EditorCore.Yaml

/-- A unit of structure, or a scalar. -/
inductive Lexeme where
  | documentStart
  | documentEnd
  | blockSequenceStart
  | blockMappingStart
  | blockEnd
  | flowSequenceStart
  | flowSequenceEnd
  | flowMappingStart
  | flowMappingEnd
  | blockItem
  | flowItem
  | key
  | value
  | scalar (text : List Char) (isPlain : Bool)
deriving DecidableEq, Repr

/-- Something that becomes a key if a colon follows it. -/
structure PossibleKey where
  /-- It stands where only a key may stand. -/
  required : Bool
  /-- The number of lexemes in front of it. -/
  position : Nat
  place : Spot

/-- What has been read and what it implies for the rest. -/
structure Outline where
  /-- The column of the innermost block structure, and those around it. -/
  indent : Int
  outerIndents : List Int
  /-- Whether a key may start here. -/
  keyAllowed : Bool
  /-- The possible key of the innermost brackets, and of those around them. -/
  possibleKey : Option PossibleKey
  outerKeys : List (Option PossibleKey)
  lexemes : Array Lexeme

namespace Outline

def start : Outline := ⟨-1, [], true, none, [], #[]⟩

def inFlow (outline : Outline) : Bool :=
  outline.outerKeys ≠ []

def push (outline : Outline) (lexeme : Lexeme) : Outline :=
  { outline with lexemes := outline.lexemes.push lexeme }

/-- Put a lexeme in front of the one at a position. -/
def insert (outline : Outline) (position : Nat) (lexeme : Lexeme) : Outline :=
  { outline with lexemes := outline.lexemes.insertIdxIfInBounds position lexeme }

/-! ## Indentation -/

/-- Close the block structures among some that are deeper than a column. -/
def closeBlocks (column : Int) : Int → List Int → Int × List Int × List Lexeme
  | indent, [] => (indent, [], [])
  | indent, outer :: more =>
      if column < indent then
        let (indent, indents, ends) := closeBlocks column outer more
        (indent, indents, .blockEnd :: ends)
      else (indent, outer :: more, [])

/-- Close the block structures that are deeper than a column.  Inside brackets
indentation means nothing. -/
def closeTo (outline : Outline) (column : Int) : Outline :=
  if outline.inFlow then outline
  else
    let (indent, outerIndents, ends) :=
      closeBlocks column outline.indent outline.outerIndents
    { outline with indent, outerIndents, lexemes := outline.lexemes ++ ends }

/-- Open a block structure at a column that is deeper than the innermost, with
its lexeme at a position. -/
def openBlock (outline : Outline) (column position : Nat) (lexeme : Lexeme) : Outline :=
  if outline.inFlow || (column : Int) ≤ outline.indent then outline
  else { outline with
    indent := column
    outerIndents := outline.indent :: outline.outerIndents }.insert position lexeme

/-! ## Possible keys -/

/-- A key stands on one line and has no more bytes than this. -/
def keyReach : Nat := 1024

/-- Drop a possible key that is too far behind a place, unless it is required. -/
def expire (place : Spot) : Option PossibleKey → Option (Option PossibleKey)
  | none => some none
  | some key =>
      if key.place.line < place.line || key.place.offset + keyReach < place.offset then
        if key.required then none else some none
      else some (some key)

/-- Drop the possible keys that are too far behind a place. -/
def expireKeys (outline : Outline) (place : Spot) : Option Outline := do
  let possibleKey ← expire place outline.possibleKey
  let outerKeys ← outline.outerKeys.mapM (expire place)
  some { outline with possibleKey, outerKeys }

def dropKey (outline : Outline) : Option Outline :=
  match outline.possibleKey with
  | some key => if key.required then none else some { outline with possibleKey := none }
  | none => some outline

/-- What starts at a place is a possible key, if a key may start there. -/
def noteKey (outline : Outline) (place : Spot) : Option Outline :=
  if outline.keyAllowed then do
    let outline ← outline.dropKey
    some { outline with possibleKey := some {
      required := !outline.inFlow && outline.indent = place.column
      position := outline.lexemes.size
      place := place } }
  else some outline

/-! ## Lexemes -/

/-- The gap and the comments in front of a lexeme, with the mark that a line may
start with.  After a break outside of brackets a key may start; where one may,
tabs do not indent. -/
def skipGaps (inFlow : Bool) : (keyAllowed inComment : Bool) → List Spot → Bool × List Spot
  | keyAllowed, _, [] => (keyAllowed, [])
  | keyAllowed, inComment, spot :: rest =>
      if endsLine spot.char then skipGaps inFlow (keyAllowed || !inFlow) false rest
      else if inComment || spot.char = '#' then skipGaps inFlow keyAllowed true rest
      else if spot.char = ' ' || (spot.char = '\t' && (inFlow || !keyAllowed)) ||
          (spot.char = byteOrderMark && spot.column = 0) then
        skipGaps inFlow keyAllowed false rest
      else (keyAllowed, spot :: rest)

def openFlow (outline : Outline) (place : Spot) (lexeme : Lexeme) : Option Outline := do
  let outline ← outline.noteKey place
  some ({ outline with
    possibleKey := none
    outerKeys := outline.possibleKey :: outline.outerKeys
    keyAllowed := true }.push lexeme)

def closeFlow (outline : Outline) (lexeme : Lexeme) : Option Outline := do
  let outline ← outline.dropKey
  let (possibleKey, outerKeys) := match outline.outerKeys with
    | [] => (outline.possibleKey, [])
    | key :: more => (key, more)
  some ({ outline with possibleKey, outerKeys, keyAllowed := false }.push lexeme)

def openEntry (outline : Outline) (place : Spot) (opening lexeme : Lexeme)
    (keyAllowed : Bool) : Option Outline := do
  if !outline.inFlow && !outline.keyAllowed then none
  else
    let outline := outline.openBlock place.column outline.lexemes.size opening
    let outline ← outline.dropKey
    some ({ outline with keyAllowed }.push lexeme)

/-- A colon: what stood before it is a key, or the key is empty. -/
def openValue (outline : Outline) (place : Spot) : Option Outline :=
  match outline.possibleKey with
  | some key =>
      let outline := { outline with
        possibleKey := none
        keyAllowed := false }.insert key.position .key
      some ((outline.openBlock key.place.column key.position .blockMappingStart).push .value)
  | none =>
      if !outline.inFlow && !outline.keyAllowed then none
      else
        let outline :=
          outline.openBlock place.column outline.lexemes.size .blockMappingStart
        some ({ outline with keyAllowed := !outline.inFlow }.push .value)

/-! Scalars are read up to a bound that is above the length of the text. -/

/-- A scalar without quotes. -/
def addPlain (outline : Outline) (bound : Nat) (text : List Spot) :
    Option (Outline × List Spot) := do
  let place ← text.head?
  let outline ← outline.noteKey place
  let (chars, broken, rest) ← plainScalar outline.inFlow (outline.indent + 1) bound text
  some ({ outline with keyAllowed := broken }.push (.scalar chars true), rest)

/-- A scalar in quotes, after the opening one. -/
def addQuoted (outline : Outline) (bound : Nat) (place : Spot) (rest : List Spot) :
    Option (Outline × List Spot) := do
  let outline ← outline.noteKey place
  let (chars, rest) ← quotedScalar place.char bound rest
  some ({ outline with keyAllowed := false }.push (.scalar chars false), rest)

def addBlock (outline : Outline) (bound : Nat) (isFolded : Bool) (rest : List Spot) :
    Option (Outline × List Spot) := do
  if outline.inFlow then none
  else
    let outline ← outline.dropKey
    let (chars, rest) ← blockScalar isFolded outline.indent bound rest
    some ({ outline with keyAllowed := true }.push (.scalar chars false), rest)

/-- A mark between documents, which closes all blocks. -/
def addDocumentMark (outline : Outline) (lexeme : Lexeme) : Option Outline := do
  let outline ← (outline.closeTo (-1)).dropKey
  some ({ outline with keyAllowed := false }.push lexeme)

/-- Characters that no lexeme starts with. -/
def unusable : List Char := ['%', '@', Char.ofNat 0x60, '&', '*', '!', '\t']

/-- Add the lexeme that starts at a character. -/
def addNext (outline : Outline) (bound : Nat) (spot : Spot) (rest : List Spot) :
    Option (Outline × List Spot) :=
  let text := spot :: rest
  if startsWithMark '-' text then
    (outline.addDocumentMark .documentStart).map (·, text.drop 3)
  else if startsWithMark '.' text then
    (outline.addDocumentMark .documentEnd).map (·, text.drop 3)
  else match spot.char with
    | '[' => (outline.openFlow spot .flowSequenceStart).map (·, rest)
    | '{' => (outline.openFlow spot .flowMappingStart).map (·, rest)
    | ']' => (outline.closeFlow .flowSequenceEnd).map (·, rest)
    | '}' => (outline.closeFlow .flowMappingEnd).map (·, rest)
    | ',' => (outline.dropKey).map fun outline =>
        ({ outline with keyAllowed := true }.push .flowItem, rest)
    | '-' =>
        if atGap rest then
          (outline.openEntry spot .blockSequenceStart .blockItem true).map (·, rest)
        else outline.addPlain bound text
    | '?' =>
        if outline.inFlow || atGap rest then
          (outline.openEntry spot .blockMappingStart .key (!outline.inFlow)).map (·, rest)
        else outline.addPlain bound text
    | ':' =>
        if outline.inFlow || atGap rest then (outline.openValue spot).map (·, rest)
        else outline.addPlain bound text
    | '|' => outline.addBlock bound false rest
    | '>' => outline.addBlock bound true rest
    | '\'' => outline.addQuoted bound spot rest
    | '"' => outline.addQuoted bound spot rest
    | char => if unusable.contains char then none else outline.addPlain bound text

/-- All lexemes of a text, after those that have been read. -/
def finish : Nat → Outline → List Spot → Option (List Lexeme)
  | 0, _, _ => none
  | fuel + 1, outline, text =>
      let (keyAllowed, text) := skipGaps outline.inFlow outline.keyAllowed false text
      match text with
      | [] => do
          let outline ← (outline.closeTo (-1)).dropKey
          some outline.lexemes.toList
      | spot :: rest => do
          let outline ← { outline with keyAllowed }.expireKeys spot
          let (outline, rest) ← (outline.closeTo spot.column).addNext (fuel + 1) spot rest
          finish fuel outline rest

end Outline

def lexemes? (text : List Char) : Option (List Lexeme) :=
  if text.all isAllowed then
    Outline.finish (text.length + 1) Outline.start (spots text)
  else none

end EditorCore.Yaml
