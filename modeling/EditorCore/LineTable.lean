import EditorCore.Layout
import EditorCore.Line
import EditorCore.Text.Break

/-!
Contract: the lines of a document as spans that tile its text.

Owns:
- `LineTable`, the lines in order and the layout that places them;
- splitting a line, folding a line into the one above, shifting and restamping
  the lines that follow;
- looking up a line by offset and by height;
- `tiles`, the test that the lines cover a text without gaps.

Does not own: the text, indentation or tokens.  Splitting expects the separator
to be in the text already, folding expects it to be gone.
-/

namespace EditorCore

/-- The lines of a document and their placement. -/
structure LineTable (κ : Type) where
  lines : List (Line κ)
  layout : Layout κ
deriving Repr

namespace LineTable

variable {κ : Type}

def size (table : LineTable κ) : Nat := table.lines.length

def get? (table : LineTable κ) (index : Nat) : Option (Line κ) := table.lines[index]?

/-- The line at an index that has to exist. -/
def get (table : LineTable κ) (index : Nat) : Checked (Line κ) :=
  match table.get? index with
  | some line => .ok line
  | none => .error .noSuchLine

def lastIndex (table : LineTable κ) : Checked Nat := Word.sub table.size 1

/-- Change one line, if it exists. -/
def update (table : LineTable κ) (index : Nat) (change : Line κ → Line κ) : LineTable κ :=
  { table with lines := table.lines.modify index change }

/-- Move the spans of all lines from an index on. -/
def shiftFrom (table : LineTable κ) (first : Nat) (distance : Int) : LineTable κ :=
  { table with
    lines := table.lines.take first ++ (table.lines.drop first).map (Line.shift distance) }

variable [Coordinate κ]

/-- A table of one empty line. -/
def ofLayout (layout : Layout κ) : LineTable κ :=
  { lines := [Line.bare 0 0 0 (layout.lineOrigin 0)], layout }

def reset (table : LineTable κ) : LineTable κ := ofLayout table.layout

/-- Give a line its index and the top edge of that index's slot. -/
def stamp (layout : Layout κ) (index : Nat) (line : Line κ) : Line κ :=
  { line with index, displayOrigin := layout.lineOrigin index }

/-- Stamp lines with their places, which count from an index on. -/
def stamped (layout : Layout κ) (first : Nat) (lines : List (Line κ)) : List (Line κ) :=
  lines.mapIdx fun place => stamp layout (first + place)

/-- Stamp every line from an index on with its place. -/
def renumber (table : LineTable κ) (first : Nat) : LineTable κ :=
  { table with
    lines := table.lines.take first ++ stamped table.layout first (table.lines.drop first) }

/-- Place all lines anew. -/
def setLayout (table : LineTable κ) (layout : Layout κ) : LineTable κ :=
  renumber { table with layout } 0

/-! ## Splitting and folding -/

/-- Split a line at an offset on it.  The line keeps what is before the offset;
a new line after it takes the rest, past the separator, and all later lines
move on by the separator.  The new line's index is returned. -/
def split (table : LineTable κ) (index offset : Nat) : Checked (LineTable κ × Nat) := do
  let line ← table.get index
  if line.contains offset = false then throw .outsideLine
  let start ← Word.add offset separatorLength
  let stop ← Word.add line.stop separatorLength
  let kept := { line with stop := offset, indentEnd := min line.indentEnd offset }
  let opened := Line.bare (index + 1) start stop (table.layout.lineOrigin (index + 1))
  let later := (table.lines.drop (index + 1)).map (Line.shift separatorLength)
  return ({ table with
    lines := table.lines.take index ++
      kept :: opened :: stamped table.layout (index + 2) later }, index + 1)

/-- Fold a line into the one above it, whose index is returned.  The line's
span is still the one from before the separator was removed. -/
def merge (table : LineTable κ) (index : Nat) : Checked (LineTable κ × Nat) := do
  if index = 0 then throw .nothingAbove
  let removed ← table.get index
  let above ← table.get (index - 1)
  let stop ← Word.sub removed.stop separatorLength
  let later := (table.lines.drop (index + 1)).map (Line.shift (-(separatorLength : Int)))
  return ({ table with
    lines := table.lines.take (index - 1) ++
      { above with stop } :: stamped table.layout index later }, index - 1)

/-! ## Looking up -/

/-- Halve a stretch of indices, keeping the half whose first index satisfies a
test that holds up to some index and fails after it. -/
def bisect (test : Nat → Bool) (base size : Nat) : Nat :=
  if size ≤ 1 then base
  else
    let half := size / 2
    bisect test (if test (base + half) then base + half else base) (size - half)
termination_by size
decreasing_by omega

/-- The index of the last line that starts at or before an offset. -/
def lineAtOffset (table : LineTable κ) (offset : Nat) : Nat :=
  bisect (fun index => table.lines[index]?.any fun line => line.start ≤ offset) 0 table.size

/-- The index of the line whose slot a height falls into. -/
def lineAtY (table : LineTable κ) (y : κ) : Nat := table.layout.lineAtY table.size y

/-! ## Covering the text -/

/-- Whether lines from an index and an offset on cover a text up to its length:
each stands at its index, starts where the last separator ended, and has its
indentation inside its span. -/
def tilesFrom (length : Nat) : Nat → Nat → List (Line κ) → Bool
  | _, _, [] => false
  | index, start, line :: later =>
      line.index = index && line.start = start &&
        line.start ≤ line.indentEnd && line.indentEnd ≤ line.stop &&
        match later with
        | [] => line.stop = length
        | _ :: _ => tilesFrom length (index + 1) (line.stop + separatorLength) later

/-- Whether the lines cover a text of some length without gaps. -/
def tiles (table : LineTable κ) (length : Nat) : Bool :=
  tilesFrom length 0 0 table.lines

end LineTable

end EditorCore
