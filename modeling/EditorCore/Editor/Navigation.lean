import EditorCore.Editor.Upkeep
import EditorCore.Message

/-!
Contract: the operations that move the caret and leave the text alone.

Owns: motion by character, word, line and document, the remembered column of
vertical motion, and placing the caret at a position or under a pointer.

Does not own: input events.
-/

namespace EditorCore

namespace Editor

variable {κ : Type} [Coordinate κ]

/-! ## By character -/

def toLineStart (editor : Editor κ) (index : Nat) : Checked (Editor κ) := do
  let line ← editor.lines.get index
  return { editor with cursor := { editor.cursor with
    line := index, caret := line.start, x := 0 } }

def toLineEnd (editor : Editor κ) (index : Nat) : Checked (Editor κ) := do
  let line ← editor.lines.get index
  refreshX { editor with cursor := { editor.cursor with line := index, caret := line.stop } }

/-- One character back, or to the end of the line above. -/
def moveLeft (editor : Editor κ) : Checked (Editor κ) := do
  let line ← editor.currentLine
  let cursor := editor.cursor
  if line.start < cursor.caret then
    let x := match editor.buffer.charAt (cursor.caret - 1) with
      | some char => Coordinate.clampToZero (cursor.x - editor.advance char)
      | none => cursor.x
    settle { editor with cursor := { cursor with caret := cursor.caret - 1, x } }
  else if 0 < cursor.line then (← editor.toLineEnd (cursor.line - 1)).settle
  else editor.settle

/-- One character on, or to the start of the line below. -/
def moveRight (editor : Editor κ) : Checked (Editor κ) := do
  let line ← editor.currentLine
  let cursor := editor.cursor
  if cursor.caret < line.stop then
    let x := match editor.buffer.charAt cursor.caret with
      | some char => cursor.x + editor.advance char
      | none => cursor.x
    settle { editor with cursor := { cursor with caret := cursor.caret + 1, x } }
  else if cursor.line + 1 < editor.lines.size then
    (← editor.toLineStart (cursor.line + 1)).settle
  else editor.settle

/-! ## By line -/

/-- Go to another line, to the remembered column or the end of a line that is
too short for it. -/
def moveVertical (editor : Editor κ) (target : Nat) : Checked (Editor κ) := do
  let column ← editor.currentColumn
  let cursor := editor.cursor.setDesired column
  let line ← editor.lines.get target
  let caret := line.start + min (cursor.effectiveColumn column) (← line.length)
  (← refreshX { editor with cursor := { cursor with caret, line := target } }).finish

/-- One line up.  On the first line nothing happens. -/
def moveUp (editor : Editor κ) : Checked (Editor κ) :=
  if 0 < editor.cursor.line then editor.moveVertical (editor.cursor.line - 1) else .ok editor

/-- One line down.  On the last line nothing happens. -/
def moveDown (editor : Editor κ) : Checked (Editor κ) :=
  if editor.cursor.line + 1 < editor.lines.size then
    editor.moveVertical (editor.cursor.line + 1)
  else .ok editor

def moveLineStart (editor : Editor κ) : Checked (Editor κ) := do
  (← editor.toLineStart editor.cursor.line).settle

def moveLineEnd (editor : Editor κ) : Checked (Editor κ) := do
  (← editor.toLineEnd editor.cursor.line).settle

def moveDocumentStart (editor : Editor κ) : Checked (Editor κ) :=
  settle { editor with cursor := { editor.cursor with line := 0, caret := 0, x := 0 } }

def moveDocumentEnd (editor : Editor κ) : Checked (Editor κ) := do
  (← editor.toLineEnd (← editor.lines.lastIndex)).settle

/-! ## By word -/

/-- The length of a word step over characters that lead away from the caret: a
terminal alone, or everything before the next terminal. -/
def wordStep (editor : Editor κ) : List Char → Nat
  | [] => 0
  | char :: rest =>
      if editor.isTerminal char then 1
      else ((char :: rest).takeWhile fun next => !editor.isTerminal next).length

/-- On to the next terminal, or over one; from the end of a line, to the start
of the next. -/
def moveWordRight (editor : Editor κ) : Checked (Editor κ) := do
  let line ← editor.currentLine
  let cursor := editor.cursor
  if line.stop ≤ cursor.caret then
    if cursor.line + 1 < editor.lines.size then
      (← editor.toLineStart (cursor.line + 1)).settle
    else editor.settle
  else
    let caret := cursor.caret + editor.wordStep (editor.buffer.slice cursor.caret line.stop)
    settle { editor with cursor := { cursor with
      caret, x := cursor.x + editor.widthOf cursor.caret caret } }

/-- Back to the last terminal, or over one; from the start of a line, to the
end of the one above. -/
def moveWordLeft (editor : Editor κ) : Checked (Editor κ) := do
  let line ← editor.currentLine
  let cursor := editor.cursor
  if cursor.caret ≤ line.start then
    if 0 < cursor.line then (← editor.toLineEnd (cursor.line - 1)).settle
    else editor.settle
  else
    let step := editor.wordStep (editor.buffer.slice line.start cursor.caret).reverse
    let caret ← Word.sub cursor.caret step
    (← refreshX { editor with cursor := { cursor with caret } }).settle

/-! ## To a place -/

/-- To a line and a column, each as near as the document has it. -/
def moveToPosition (editor : Editor κ) (position : Position) : Checked (Editor κ) := do
  let index := min position.line (← editor.lines.lastIndex)
  let line ← editor.lines.get index
  let caret := line.start + min position.column (← line.length)
  (← refreshX { editor with cursor := { editor.cursor with line := index, caret } }).settle

/-- The column whose accumulated width is the first to reach a distance, with
that width.  A distance past the line gives its end. -/
def columnAt (advance : Char → κ) (target : κ) : κ → List Char → Nat × κ
  | width, [] => (0, width)
  | width, char :: rest =>
      if Coordinate.atMost target width then (0, width)
      else
        let (column, reached) := columnAt advance target (width + advance char) rest
        (column + 1, reached)

/-- Under a pointer: the line whose slot is at the height, and on it the first
column that reaches the pointer. -/
def moveToPoint (editor : Editor κ) (x y : κ) : Checked (Editor κ) := do
  let index := editor.lines.lineAtY y
  let line ← editor.lines.get index
  let (column, reached) := columnAt editor.advance (x - editor.lines.layout.originX) 0
    (editor.charsOf line)
  settle { editor with cursor := { editor.cursor with
    line := index, caret := line.start + column, x := reached } }

def move (editor : Editor κ) : Motion → Checked (Editor κ)
  | .left => editor.moveLeft
  | .right => editor.moveRight
  | .up => editor.moveUp
  | .down => editor.moveDown
  | .lineStart => editor.moveLineStart
  | .lineEnd => editor.moveLineEnd
  | .wordLeft => editor.moveWordLeft
  | .wordRight => editor.moveWordRight
  | .documentStart => editor.moveDocumentStart
  | .documentEnd => editor.moveDocumentEnd

end Editor

end EditorCore
