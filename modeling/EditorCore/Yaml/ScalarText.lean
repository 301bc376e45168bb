import EditorCore.Yaml.Scalar
import EditorCore.Yaml.Spot

/-!
Contract: the text that a written scalar stands for.

Owns:
- how a gap inside a scalar folds: a single break is a space, of several the
  first is dropped;
- scalars without quotes, in single and in double quotes, and in blocks;
- escapes.

Each scalar is read up to a bound, which is above the length of the text.

Does not own: where a scalar may stand.
-/

namespace EditorCore.Yaml

/-! ## Gaps -/

/-- Blanks and breaks between two parts of a scalar. -/
structure Gap where
  /-- The blanks in front of the first break. -/
  blanks : List Char
  breaks : List Char

namespace Gap

/-- The gap that a text starts with, and the rest. -/
def take (text : List Spot) : Gap × List Spot :=
  let run := (text.takeWhile fun spot => isGap spot.char).map Spot.char
  (⟨run.takeWhile isBlank, run.filter endsLine⟩, text.dropWhile fun spot => isGap spot.char)

/-- What a gap between two parts adds to the text. -/
def folded (gap : Gap) : List Char :=
  match gap.breaks with
  | [] => gap.blanks
  | ['\n'] => [' ']
  | '\n' :: more => more
  | breaks => breaks

end Gap

/-! ## Without quotes -/

/-- Characters that end a scalar without quotes inside brackets. -/
def flowIndicators : List Char := [',', '[', ']', '{', '}']

/-- A stretch of a scalar without quotes, up to a gap or an indicator.  Inside
brackets, a colon in front of an indicator is refused. -/
def plainPart (inFlow : Bool) : List Spot → Option (List Char × List Spot)
  | [] => some ([], [])
  | spot :: rest =>
      if isGap spot.char || (spot.char = ':' && atGap rest) ||
          (inFlow && flowIndicators.contains spot.char) then
        some ([], spot :: rest)
      else if inFlow && spot.char = ':' && startsWithAny ('?' :: flowIndicators) rest then none
      else do
        let (part, after) ← plainPart inFlow rest
        some (spot.char :: part, after)

/-- Whether a tab stands in an indentation that is not deep enough yet. -/
def hasShallowTab (indent : Int) (text : List Spot) : Bool :=
  ((text.takeWhile fun spot => isGap spot.char).dropWhile fun spot => isBlank spot.char).any
    fun spot => spot.char = '\t' && spot.column < indent

/-- The parts of a scalar without quotes after the first, with the gaps in
front of them.  Tells whether the gap behind the scalar holds a break. -/
def plainRest (inFlow : Bool) (indent : Int) :
    Nat → List Spot → Option (List Char × Bool × List Spot)
  | 0, _ => none
  | fuel + 1, text => do
      let (gap, after) := Gap.take text
      let broken := gap.breaks ≠ []
      if hasShallowTab indent text then none
      else match after with
        | [] => some ([], broken, [])
        | next :: _ =>
            if (!inFlow && next.column < indent) || atDocumentMark after || next.char = '#' then
              some ([], broken, after)
            else
              let (part, rest) ← plainPart inFlow after
              if part = [] then some ([], broken, after)
              else
                let (more, brokenAfter, end_) ← plainRest inFlow indent fuel rest
                some (gap.folded ++ part ++ more, brokenAfter, end_)

/-- A scalar without quotes, whether a break follows it, and the rest. -/
def plainScalar (inFlow : Bool) (indent : Int) (bound : Nat) (text : List Spot) :
    Option (List Char × Bool × List Spot) := do
  let (part, rest) ← plainPart inFlow text
  let (more, broken, after) ← plainRest inFlow indent bound rest
  some (part ++ more, broken, after)

/-! ## In quotes -/

/-- What a letter after a backslash stands for. -/
def escapes : List (Char × Char) := [
  ('0', '\x00'), ('a', '\x07'), ('b', '\x08'), ('t', '\t'), ('\t', '\t'), ('n', '\n'),
  ('v', '\x0b'), ('f', '\x0c'), ('r', '\r'), ('e', '\x1b'), (' ', ' '), ('"', '"'),
  ('/', '/'), ('\\', '\\'), ('N', Char.ofNat 0x85), ('_', Char.ofNat 0xA0),
  ('L', Char.ofNat 0x2028), ('P', Char.ofNat 0x2029)]

/-- The hexadecimal digits that a letter after a backslash asks for. -/
def escapeDigits : List (Char × Nat) := [('x', 2), ('u', 4), ('U', 8)]

/-- The character that an escape stands for, and the rest. -/
def escaped? : List Spot → Option (Char × List Spot)
  | [] => none
  | spot :: rest =>
      match escapes.lookup spot.char, escapeDigits.lookup spot.char with
      | some char, _ => some (char, rest)
      | none, some count => do
          let digits := (rest.take count).map Spot.char
          if digits.length < count then none
          else
            let value ← natInBase? 16 digits
            if value.isValidChar then some (Char.ofNat value, rest.drop count) else none
      | none, none => none

/-- A stretch of a scalar in single quotes, up to a gap or the closing quote. -/
def singlePart : List Spot → List Char × List Spot
  | [] => ([], [])
  | [spot] => if isGap spot.char || spot.char = '\'' then ([], [spot]) else ([spot.char], [])
  | spot :: next :: rest =>
      if spot.char = '\'' && next.char = '\'' then
        let (part, after) := singlePart rest
        ('\'' :: part, after)
      else if isGap spot.char || spot.char = '\'' then ([], spot :: next :: rest)
      else
        let (part, after) := singlePart (next :: rest)
        (spot.char :: part, after)

/-- A stretch of a scalar in double quotes, up to a gap, the closing quote or
a break behind a backslash, which is skipped; tells whether it was. -/
def doublePart : Nat → List Spot → Option (List Char × Bool × List Spot)
  | 0, _ => none
  | _ + 1, [] => some ([], false, [])
  | fuel + 1, spot :: rest =>
      if isGap spot.char || spot.char = '"' then some ([], false, spot :: rest)
      else if spot.char = '\\' then
        match rest with
        | next :: after =>
            if endsLine next.char then some ([], true, after)
            else do
              let (char, after) ← escaped? rest
              let (part, joined, after) ← doublePart fuel after
              some (char :: part, joined, after)
        | [] => none
      else do
        let (part, joined, after) ← doublePart fuel rest
        some (spot.char :: part, joined, after)

/-- The text up to the closing quote, and the rest.  After a skipped break, all
further breaks of the gap count. -/
def quotedRest (quote : Char) : Nat → List Spot → Option (List Char × List Spot)
  | 0, _ => none
  | _ + 1, [] => none
  | fuel + 1, text => do
      if atDocumentMark text then none
      else
        let (part, joined, after) ←
          if quote = '"' then doublePart (fuel + 1) text
          else
            let (part, after) := singlePart text
            some (part, false, after)
        match after with
        | [] => none
        | next :: rest =>
            if next.char = quote then some (part, rest)
            else
              let (gap, rest) := Gap.take after
              let (more, after) ← quotedRest quote fuel rest
              some (part ++ (if joined then gap.breaks else gap.folded) ++ more, after)

def quotedScalar (quote : Char) (bound : Nat) (text : List Spot) :
    Option (List Char × List Spot) :=
  quotedRest quote bound text

/-! ## In blocks -/

/-- What becomes of the breaks at the end of a block. -/
inductive Chomping where
  | strip
  | clip
  | keep
deriving DecidableEq, Repr

/-- The chomping that a character asks for. -/
def Chomping.ofChar? : Char → Option Chomping
  | '-' => some strip
  | '+' => some keep
  | _ => none

/-- What is kept of the breaks at the end.  A block without lines has no break
that ends a line. -/
def Chomping.apply (isEmpty : Bool) (breaks : List Char) : Chomping → List Char
  | strip => []
  | clip => if isEmpty then [] else breaks.take 1
  | keep => breaks

/-- A digit that gives a block's indentation; zero is none. -/
def indentDigit? (char : Char) : Option Nat :=
  if char.isDigit && char ≠ '0' then some (char.toNat - '0'.toNat) else none

/-- The chomping and the indentation behind a block's indicator, in either
order, and the rest. -/
def blockHints (text : List Spot) : Chomping × Option Nat × List Spot :=
  match text with
  | [] => (.clip, none, [])
  | first :: rest =>
      match Chomping.ofChar? first.char, indentDigit? first.char with
      | some chomping, _ =>
          match rest with
          | second :: after =>
              match indentDigit? second.char with
              | some indent => (chomping, some indent, after)
              | none => (chomping, none, rest)
          | [] => (chomping, none, rest)
      | none, some indent =>
          match rest with
          | second :: after =>
              match Chomping.ofChar? second.char with
              | some chomping => (chomping, some indent, after)
              | none => (.clip, some indent, rest)
          | [] => (.clip, some indent, rest)
      | none, none => (.clip, none, first :: rest)

/-- The rest of a line that holds nothing but blanks and a comment. -/
def emptyLineRest (text : List Spot) : Option (List Spot) :=
  let unindented := text.dropWhile fun spot => isBlank spot.char
  let uncommented := if startsWithAny ['#'] unindented then
      unindented.dropWhile fun spot => !endsLine spot.char
    else unindented
  match uncommented with
  | [] => some []
  | spot :: rest => if endsLine spot.char then some rest else none

/-- The breaks of empty lines, the deepest indentation among them, and the
rest, which starts in the indentation given or behind all spaces. -/
def blockBreaks (indent : Option Nat) :
    (deepest : Nat) → List Spot → Option (List Char × Nat × List Spot)
  | deepest, [] => some ([], deepest, [])
  | deepest, spot :: rest =>
      let deepest := max deepest spot.column
      let inside := match indent with
        | some indent => spot.column < indent
        | none => true
      if inside && spot.char = ' ' then
        match rest with
        | [] => some ([], max deepest (spot.column + 1), [])
        | _ => blockBreaks indent deepest rest
      else if inside && spot.char = '\t' then none
      else if endsLine spot.char then do
        let (breaks, deepest, after) ← blockBreaks indent deepest rest
        some (spot.char :: breaks, deepest, after)
      else some ([], deepest, spot :: rest)

/-- The break between two lines of a block and the empty lines after it.  In a
folded block, a single break between lines that do not start with a blank is a
space, and of several the first is dropped. -/
def blockGap (foldable : Bool) (breaks : List Char) : List Char :=
  match breaks with
  | ['\n'] => if foldable then [' '] else ['\n']
  | '\n' :: more => if foldable then more else '\n' :: more
  | breaks => breaks

/-- The lines of a block, with the breaks in front of the first given. -/
def blockLines (isFolded : Bool) (chomping : Chomping) (indent : Nat) :
    Nat → (first afterBlank : Bool) → (breaks : List Char) → List Spot →
      Option (List Char × List Spot)
  | 0, _, _, _, _ => none
  | fuel + 1, first, afterBlank, breaks, text =>
      match text with
      | spot :: _ =>
          if spot.column = indent then do
            let startsBlank := isBlank spot.char
            let line := (text.takeWhile fun spot => !endsLine spot.char).map Spot.char
            let (own, after) := match text.dropWhile fun spot => !endsLine spot.char with
              | [] => ([], [])
              | ending :: after => ([ending.char], after)
            let (empty, _, after) ← blockBreaks (some indent) 0 after
            let (more, rest) ←
              blockLines isFolded chomping indent fuel false startsBlank (own ++ empty) after
            let foldable := isFolded && !first && !afterBlank && !startsBlank
            some (blockGap foldable breaks ++ line ++ more, rest)
          else some (chomping.apply first breaks, text)
      | [] => some (chomping.apply first breaks, [])

/-- A block after its indicator, inside an indentation, and the rest. -/
def blockScalar (isFolded : Bool) (outer : Int) (bound : Nat) (text : List Spot) :
    Option (List Char × List Spot) := do
  let (chomping, hint, header) := blockHints text
  let body ← emptyLineRest header
  let indent := hint.map fun hint => (max outer 0).toNat + hint
  let (breaks, deepest, lines) ← blockBreaks indent 0 body
  let indent := indent.getD (max deepest (max (outer + 1) 1).toNat)
  blockLines isFolded chomping indent bound true false breaks lines

end EditorCore.Yaml
