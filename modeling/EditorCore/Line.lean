import EditorCore.Fault
import EditorCore.Token

/-!
Contract: one line of a document as a span.

Owns: `Line`, the span of a line, the end of its indentation, its cached place
on the page and its tokens; lengths, columns and the shift of a span.

Does not own: the characters, or how lines follow one another.
-/

namespace EditorCore

/-- A line's span `[start, stop)`, without the separator after it. -/
structure Line (κ : Type) where
  /-- The line's place in its table. -/
  index : Nat
  start : Nat
  stop : Nat
  /-- The end of the leading run of blanks. -/
  indentEnd : Nat
  /-- The cached top edge of the line's slot. -/
  displayOrigin : κ
  tokens : TokenStream κ
deriving DecidableEq, Repr

namespace Line

variable {κ : Type}

/-- A line without indentation or tokens. -/
def bare (index start stop : Nat) (displayOrigin : κ) : Line κ :=
  { index, start, stop, indentEnd := start, displayOrigin, tokens := [] }

def length (line : Line κ) : Checked Nat := Word.sub line.stop line.start

def isEmpty (line : Line κ) : Bool := line.start = line.stop

/-- A caret may stand at any offset from the start to the end of a line, the
end included. -/
def contains (line : Line κ) (offset : Nat) : Bool :=
  line.start ≤ offset && offset ≤ line.stop

/-- The column of an offset, clamped to the line. -/
def columnOf (line : Line κ) (offset : Nat) : Checked Nat := do
  return min (offset - line.start) (← line.length)

/-- The line moved by a signed distance. -/
def shift (distance : Int) (line : Line κ) : Line κ :=
  { line with
    start := Word.shift line.start distance
    stop := Word.shift line.stop distance
    indentEnd := Word.shift line.indentEnd distance }

end Line

end EditorCore
