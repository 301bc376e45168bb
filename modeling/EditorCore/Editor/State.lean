import EditorCore.Buffer
import EditorCore.CursorWatch
import EditorCore.Lexer
import EditorCore.LineTable
import EditorCore.Settings
import EditorCore.Text.Blank

/-!
Contract: the state of an editor and what can be read off it.

Owns:
- `Blink`, the visible and hidden phases of the caret;
- `Editor`, the text with everything derived from it: lines, tokens, the caret
  and its caches;
- an editor without text, and the questions that change nothing.

Does not own: any change to the text or the caret.
-/

namespace EditorCore

/-- Frames between two changes of the caret's visibility. -/
def blinkTicks : Nat := 45

/-- Whether the caret shows, and the frames since that last changed. -/
structure Blink where
  visible : Bool
  timer : Nat
deriving DecidableEq, Repr

namespace Blink

def fresh : Blink := { visible := true, timer := 0 }

/-- Let a frame pass.  The answer tells whether the visibility changed. -/
def tick (blink : Blink) : Blink × Bool :=
  if blinkTicks ≤ blink.timer + 1 then ({ visible := !blink.visible, timer := 0 }, true)
  else ({ blink with timer := blink.timer + 1 }, false)

end Blink

/-- A text under edit. -/
structure Editor (κ : Type) where
  buffer : Buffer
  lines : LineTable κ
  cursor : Cursor κ
  lexer : Lexer
  metrics : GlyphMetrics κ
  options : Options κ
  /-- The style that the document is saved in. -/
  ending : LineEnding
  blink : Blink
  watch : CursorWatch
  /-- The last typed character was a CR, so that an LF right after it is the
  second half of the same break. -/
  afterTypedCr : Bool

namespace Editor

variable {κ : Type} [Coordinate κ]

/-- The place of the first line: the margin goes around the text. -/
def layoutAt (options : Options κ) (x y : κ) : Layout κ :=
  { originX := x, originY := y, lineHeight := options.lineHeight }

def ofSettings (settings : Settings κ) (metrics : GlyphMetrics κ) : Editor κ where
  buffer := Buffer.empty settings.capacity
  lines := LineTable.ofLayout
    (layoutAt (Options.ofSettings settings) settings.margin settings.margin)
  cursor := Cursor.ofOffset 0 0
  lexer := Lexer.ofKeywords (KeywordSet.ofList settings.keywords)
  metrics
  options := Options.ofSettings settings
  ending := .crLf
  blink := Blink.fresh
  watch := CursorWatch.fresh
  afterTypedCr := false

/-- An editor with an empty document, unless memory cannot hold the unit of
indentation. -/
def create (settings : Settings κ) (metrics : GlyphMetrics κ) : Checked (Editor κ) := do
  settings.indentUnit.ensureHeld
  return ofSettings settings metrics

/-! ## The text -/

def text (editor : Editor κ) : String := editor.buffer.content

/-- The whole text in the style that the document was loaded with. -/
def textForSave (editor : Editor κ) : String :=
  match editor.ending with
  | .crLf => editor.text
  | ending => String.ofList (withEnding ending editor.buffer.toList)

def charsOf (editor : Editor κ) (line : Line κ) : List Char :=
  editor.buffer.slice line.start line.stop

def lineChars? (editor : Editor κ) (index : Nat) : Option (List Char) :=
  (editor.lines.get? index).map editor.charsOf

/-! ## The caret -/

def currentLine (editor : Editor κ) : Checked (Line κ) := editor.lines.get editor.cursor.line

def currentColumn (editor : Editor κ) : Checked Nat := do
  Word.sub editor.cursor.caret (← editor.currentLine).start

def position (editor : Editor κ) : Checked Position := do
  return { line := editor.cursor.line, column := ← editor.currentColumn }

/-- The caret stands at the end of its line's indentation, and there is some. -/
def atIndentBoundary (editor : Editor κ) : Checked Bool := do
  let line ← editor.currentLine
  return editor.cursor.caret = line.indentEnd && line.start < editor.cursor.caret

/-! ## Widths -/

def advance (editor : Editor κ) (char : Char) : κ :=
  editor.metrics.advance char editor.options.textSize

/-- The width of a range of the text. -/
def widthOf (editor : Editor κ) (start stop : Nat) : κ :=
  editor.metrics.runWidth (editor.buffer.slice start stop) editor.options.textSize

/-- Whether word motion stops at a character. -/
def isTerminal (editor : Editor κ) (char : Char) : Bool :=
  editor.options.wordTerminals.contains char

end Editor

end EditorCore
