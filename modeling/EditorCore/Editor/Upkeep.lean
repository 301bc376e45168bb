import EditorCore.Editor.State

/-!
Contract: keeping what is derived from the text in step with it.

Owns:
- the cached distance of the caret, recomputed from its line;
- the indentation and tokens of a line, recomputed from its characters;
- `finish`, the common end of every operation: the indent level, the blink, the
  watch and the checks that no operation may fail.

Does not own: which lines an operation touches.
-/

namespace EditorCore

namespace Editor

variable {κ : Type} [Coordinate κ]

/-- Measure the caret's distance from the start of its line. -/
def refreshX (editor : Editor κ) : Checked (Editor κ) := do
  let line ← editor.currentLine
  return { editor with cursor := { editor.cursor with
    x := editor.widthOf line.start editor.cursor.caret } }

/-- A line with the indentation that its characters have and its tokens lexed
anew, and the lexer afterwards. -/
def relexed (editor : Editor κ) (hasSeparator : Bool) (line : Line κ) : Lexer × Line κ :=
  let chars := editor.charsOf line
  let indented := { line with indentEnd := line.start + leadingBlanks chars }
  if editor.options.syntaxHighlight then
    let (lexer, tokens) := editor.lexer.relex line.tokens chars hasSeparator editor.metrics
      editor.options.textSize
    (lexer, { indented with tokens })
  else (editor.lexer, { indented with tokens := line.tokens.clear })

/-- Recompute the indentation and the tokens of one line, if it exists. -/
def relexLine (editor : Editor κ) (index : Nat) : Editor κ :=
  match editor.lines.get? index with
  | none => editor
  | some line =>
      let (lexer, fresh) := editor.relexed (index + 1 < editor.lines.size) line
      { editor with lexer, lines := editor.lines.update index fun _ => fresh }

/-- Recompute a stretch of lines one after the other, the last one included. -/
def relexRange (editor : Editor κ) (first last : Nat) : Editor κ :=
  (List.range' first (last + 1 - first)).foldl relexLine editor

def relexAll (editor : Editor κ) : Checked (Editor κ) := do
  return editor.relexRange 0 (← editor.lines.lastIndex)

/-- The indent units that the caret's line starts with. -/
def indentLevel (editor : Editor κ) : Checked Nat := do
  let line ← editor.currentLine
  return indentUnits editor.options.tabSize (editor.buffer.slice line.start line.indentEnd)

/-- End an operation.  The caret shows, its position is made known, and the
lines have to cover the text with the caret on its line. -/
def finish (editor : Editor κ) : Checked (Editor κ) := do
  let indentLevel ← editor.indentLevel
  let position ← editor.position
  if editor.lines.tiles editor.buffer.length = false then throw .brokenTable
  if (← editor.currentLine).contains editor.cursor.caret = false then throw .outsideLine
  return { editor with
    cursor := { editor.cursor with indentLevel }
    blink := Blink.fresh
    watch := editor.watch.observe position }

/-- End an operation that forgets the remembered column. -/
def settle (editor : Editor κ) : Checked (Editor κ) :=
  finish { editor with cursor := editor.cursor.clearDesired }

end Editor

end EditorCore
