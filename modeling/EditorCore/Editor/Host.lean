import EditorCore.Editor.Editing
import EditorCore.Editor.Navigation
import EditorCore.Unicode.Ranges

/-!
Contract: what a host calls with its input events, and what it draws.

Owns:
- handling a message, a typed character, a key, the mouse and a paste;
- frames and the queue of caret events;
- the caret's rectangle and the lines to draw.

Does not own: the platform.
-/

namespace EditorCore

namespace Editor

variable {κ : Type} [Coordinate κ]

/-! ## Input -/

def tick (editor : Editor κ) : Editor κ × Bool :=
  let (blink, toggled) := editor.blink.tick
  ({ editor with blink }, toggled)

/-- Act on a message.  The answer tells whether to draw again; a paste that is
refused for its length only answers that nothing changed. -/
def handle (editor : Editor κ) : Message κ → Checked (Editor κ × Bool)
  | .move motion => do return (← editor.move motion, true)
  | .insertChar char => editor.insertChar char
  | .insertNewline => editor.insertLine
  | .deleteBackward => editor.deleteChar
  | .indent => editor.indent
  | .outdent => editor.outdent
  | .paste text => do
      match ← editor.paste text with
      | (pasted, .ok applied) => return (pasted, applied)
      | (unchanged, .error _) => return (unchanged, false)
  | .mouseDown x y => do return (← editor.moveToPoint x y, true)
  | .tick => .ok editor.tick

/-- A typed character.  A CR and an LF right after it are one break, a tab
indents, and other control characters do nothing. -/
def onCharacter (editor : Editor κ) (char : Char) : Checked (Editor κ × Bool) :=
  let typed := { editor with afterTypedCr := char = '\r' }
  if char = '\n' ∧ editor.afterTypedCr then .ok (typed, false)
  else if isBreak char then typed.handle .insertNewline
  else if char = '\t' then typed.handle .indent
  else if isControl char then .ok (typed, false)
  else typed.handle (.insertChar char)

def forgetTypedCr (editor : Editor κ) : Editor κ := { editor with afterTypedCr := false }

def onKey (editor : Editor κ) (key : Key) : Checked (Editor κ × Bool) :=
  editor.forgetTypedCr.handle (.ofKey key)

def onMouseDown (editor : Editor κ) (x y : κ) : Checked (Editor κ × Bool) :=
  editor.forgetTypedCr.handle (.mouseDown x y)

def onPaste (editor : Editor κ) (text : String) : Checked (Editor κ × Except EditError Bool) :=
  editor.forgetTypedCr.paste text

/-- Fetch the caret events that are queued. -/
def pollEvents (editor : Editor κ) : Editor κ × List CursorEvent :=
  let (watch, events) := editor.watch.drain
  ({ editor with watch }, events)

/-! ## Drawing -/

/-- A rectangle on the page. -/
structure Rect (κ : Type) where
  x : κ
  y : κ
  width : κ
  height : κ
deriving DecidableEq, Repr

/-- The caret's rectangle, two units wide.  Without the focus, and in the
hidden phase, there is none. -/
def caretRect (editor : Editor κ) (focused : Bool) : Checked (Option (Rect κ)) :=
  if focused && editor.blink.visible then do
    let line ← editor.currentLine
    return some {
      x := editor.lines.layout.originX + editor.cursor.x
      y := line.displayOrigin
      width := Coordinate.ofCount 2
      height := editor.options.textSize }
  else .ok none

structure DrawnLine (κ : Type) where
  index : Nat
  text : List Char
  tokens : List (Token κ)
  originY : κ
  isCurrent : Bool
deriving DecidableEq, Repr

def drawn (editor : Editor κ) (line : Line κ) : DrawnLine κ where
  index := line.index
  text := editor.charsOf line
  tokens := line.tokens
  originY := line.displayOrigin
  isCurrent := line.index = editor.cursor.line

/-- Whether a line's slot meets the range from a top to a bottom. -/
def meets (editor : Editor κ) (top bottom : κ) (line : Line κ) : Bool :=
  Coordinate.before line.displayOrigin bottom &&
    Coordinate.before top (line.displayOrigin + editor.lines.layout.lineHeight)

/-- The lines to draw in a range of some height.  Only the lines between those
at its top and its bottom are looked at. -/
def visibleLines (editor : Editor κ) (top height : κ) : Checked (List (DrawnLine κ)) :=
  let bottom := top + height
  let first := editor.lines.lineAtY top
  let last := editor.lines.lineAtY bottom
  if Coordinate.before 0 height = false then .ok []
  else if last + 1 < first then .error .reversedRange
  else if editor.lines.size ≤ last then .error .noSuchLine
  else
    let span := (editor.lines.lines.take (last + 1)).drop first
    .ok ((span.filter (editor.meets top bottom)).map editor.drawn)

end Editor

end EditorCore
