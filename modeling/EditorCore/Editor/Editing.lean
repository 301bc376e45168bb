import EditorCore.Clipboard
import EditorCore.Editor.Splice

/-!
Contract: the operations that change the text.

Owns:
- loading a document in place of the text;
- typing a character, Enter, Tab, the two kinds of step back, and pasting;
- copying the caret's line, and saving and loading through a document source.

Does not own: which input asks for which operation.  An operation that is
refused answers so and changes nothing.
-/

namespace EditorCore

namespace Editor

variable {κ : Type} [Coordinate κ]

/-! ## Loading -/

/-- Replace the document.  Breaks of every kind become separators, and the
style of the first is kept for saving; the caret goes to the end.  A text that
does not fit is refused before anything is touched. -/
def loadDocument (editor : Editor κ) (text : String) :
    Checked (Editor κ × Except EditError Unit) :=
  let pieces := segments text.toList
  let required := joinedLength pieces
  if editor.buffer.capacity < required then
    .ok (editor, .error (.capacityExceeded required editor.buffer.capacity))
  else do
    let cleared := { editor with
      ending := LineEnding.detect text.toList
      buffer := editor.buffer.clear
      lines := editor.lines.reset
      cursor := Cursor.ofOffset 0 0 }
    match ← cleared.streamSegments pieces with
    | (partly, .error refusal) => return (partly, .error refusal)
    | (filled, .ok ()) => return (← (← filled.relexAll).finish, .ok ())

/-- An editor with a document, or the refusal of the document. -/
def withText (settings : Settings κ) (metrics : GlyphMetrics κ) (text : String) :
    Checked (Except EditError (Editor κ)) := do
  match ← (← create settings metrics).loadDocument text with
  | (_, .error refusal) => return .error refusal
  | (loaded, .ok ()) => return .ok loaded

/-- Replace the document by what a document source answered. -/
def loadAnswer (editor : Editor κ) (answer : Except EditError String) :
    Checked (Editor κ × Except EditError Unit) :=
  match answer with
  | .error refusal => .ok (editor, .error refusal)
  | .ok text => editor.loadDocument text

/-! ## Enter -/

def indentBeforeCaret (editor : Editor κ) : Checked Nat := do
  let line ← editor.currentLine
  return indentUnits editor.options.tabSize
    (editor.buffer.slice line.start (min editor.cursor.caret line.indentEnd))

/-- Put an indent unit at the caret so many times, stopping at a refusal. -/
def insertUnits (editor : Editor κ) : Nat → Checked (Editor κ)
  | 0 => .ok editor
  | count + 1 => do
      match ← editor.insertRun editor.options.indentUnit.chars with
      | .error _ => return editor
      | .ok deeper => deeper.insertUnits count

/-- Enter: split the caret's line and repeat the indentation on the left of the
caret.  Refused where there is one line only, and where the separator and the
indentation do not fit together. -/
def insertLine (editor : Editor κ) : Checked (Editor κ × Bool) :=
  if editor.options.multiline = false then .ok (editor, false)
  else do
    let level ← if editor.options.autoIndent then editor.indentBeforeCaret else pure 0
    match ← editor.buffer.ensureRoom
        (separatorLength + level * editor.options.indentUnit.length) with
    | .error _ => return (editor, false)
    | .ok () =>
        match ← editor.splitLine with
        | .error _ => return (editor, false)
        | .ok opened =>
            let indented ← opened.insertUnits level
            let index := editor.cursor.line
            return (← ((indented.relexLine index).relexLine (index + 1)).settle, true)

/-! ## Typing -/

def typeRun (editor : Editor κ) (run : List Char) : Checked (Editor κ × Bool) := do
  match ← editor.insertRun run with
  | .error _ => return (editor, false)
  | .ok typed => return (← (typed.relexLine editor.cursor.line).settle, true)

/-- Type a character.  A break splits the line. -/
def insertChar (editor : Editor κ) (char : Char) : Checked (Editor κ × Bool) :=
  if isBreak char then editor.insertLine else editor.typeRun [char]

/-- Tab: type one indent unit. -/
def indent (editor : Editor κ) : Checked (Editor κ × Bool) :=
  editor.typeRun editor.options.indentUnit.chars

/-! ## Stepping back -/

/-- Remove the character before the caret; at the start of a line, the line
joins the one above. -/
def deletePlain (editor : Editor κ) : Checked (Editor κ × Bool) :=
  if editor.cursor.caret = 0 then .ok (editor, false)
  else do
    let line ← editor.currentLine
    if editor.cursor.caret = line.start then
      let merged ← editor.mergeLine
      return (← (merged.relexLine merged.cursor.line).settle, true)
    else
      let removed ← editor.removeBeforeCaret 1
      return (← (removed.relexLine editor.cursor.line).settle, true)

/-- At the end of the indentation, remove its last unit; elsewhere step back
plainly. -/
def outdent (editor : Editor κ) : Checked (Editor κ × Bool) := do
  if ← editor.atIndentBoundary then
    let line ← editor.currentLine
    let width := outdentWidth (editor.buffer.slice line.start editor.cursor.caret)
      editor.options.indentUnit.length
    if width = 0 then return (editor, false)
    else
      let removed ← editor.removeBeforeCaret width
      return (← (removed.relexLine editor.cursor.line).settle, true)
  else editor.deletePlain

/-- Backspace takes a whole indent unit where there is one to take. -/
def deleteChar (editor : Editor κ) : Checked (Editor κ × Bool) := do
  if ← editor.atIndentBoundary then editor.outdent else editor.deletePlain

/-! ## The clipboard -/

/-- Put a text at the caret, splitting at its breaks.  All of it is put or
nothing; where there is one line only, a text with breaks is turned down
without an error. -/
def paste (editor : Editor κ) (text : String) : Checked (Editor κ × Except EditError Bool) :=
  if text.toList = [] then .ok (editor, .ok true)
  else
    let pieces := segments text.toList
    if 1 < pieces.length ∧ editor.options.multiline = false then .ok (editor, .ok false)
    else do
      match ← editor.buffer.ensureRoom (joinedLength pieces) with
      | .error refusal => return (editor, .error refusal)
      | .ok () =>
          match ← editor.streamSegments pieces with
          | (partly, .error refusal) => return (partly, .error refusal)
          | (filled, .ok ()) =>
              let relexed := filled.relexRange editor.cursor.line filled.cursor.line
              return (← relexed.settle, .ok true)

def pasteFrom (editor : Editor κ) (clipboard : Clipboard) :
    Checked (Editor κ × Except EditError Bool) :=
  match clipboard.read with
  | .error cause => .ok (editor, .error (.clipboard cause))
  | .ok text => editor.paste text

def copyLineTo (editor : Editor κ) (clipboard : Clipboard) :
    Checked (Except EditError Clipboard) := do
  let line ← editor.currentLine
  match clipboard.write (String.ofList (editor.charsOf line)) with
  | .error cause => return .error (.clipboard cause)
  | .ok written => return .ok written

/-! ## Presentation -/

/-- Choose other keywords and colour every line by them. -/
def setKeywords (editor : Editor κ) (words : List String) : Checked (Editor κ) :=
  relexAll { editor with lexer := editor.lexer.setKeywords words }

/-- Move the widget.  The text stands inside it by the margin. -/
def setOrigin (editor : Editor κ) (x y : κ) : Editor κ :=
  let margin := editor.options.margin
  { editor with
    lines := editor.lines.setLayout (layoutAt editor.options (x + margin) (y + margin)) }

end Editor

end EditorCore
