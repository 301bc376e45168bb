import EditorCore.Editor.Upkeep

/-!
Contract: the four changes that every edit is made of.

Owns:
- putting a run at the caret, removing a run before it, splitting the caret's
  line and folding it into the one above, each on text, lines and caret at once;
- streaming segments, which splits between each two.

Does not own: tokens and indentation, which are recomputed afterwards.  A
refused change leaves the editor as it was.
-/

namespace EditorCore

namespace Editor

variable {κ : Type} [Coordinate κ]

/-- Put a run without breaks at the caret. -/
def insertRun (editor : Editor κ) (run : List Char) : Checked (Except EditError (Editor κ)) :=
  if run = [] then .ok (.ok editor)
  else do
    match ← editor.buffer.insert editor.cursor.caret run with
    | .error refusal => return .error refusal
    | .ok buffer =>
        let grown := editor.lines.update editor.cursor.line fun line =>
          { line with stop := line.stop + run.length }
        return .ok { editor with
          buffer
          lines := grown.shiftFrom (editor.cursor.line + 1) run.length
          cursor := { editor.cursor with
            caret := editor.cursor.caret + run.length
            x := editor.cursor.x + editor.metrics.runWidth run editor.options.textSize } }

/-- Remove so many characters before the caret, all of them on its line. -/
def removeBeforeCaret (editor : Editor κ) (count : Nat) : Checked (Editor κ) := do
  let line ← editor.currentLine
  let caret := editor.cursor.caret
  if caret < line.start + count then throw .outsideLine
  let stop ← Word.sub line.stop count
  let shrunk := editor.lines.update editor.cursor.line fun line => { line with stop }
  return { editor with
    buffer := editor.buffer.removeRange (caret - count) caret
    lines := shrunk.shiftFrom (editor.cursor.line + 1) (-(count : Int))
    cursor := { editor.cursor with
      caret := caret - count
      x := Coordinate.clampToZero
        (editor.cursor.x - editor.widthOf (caret - count) caret) } }

/-- Put a separator at the caret and move onto the new line. -/
def splitLine (editor : Editor κ) : Checked (Except EditError (Editor κ)) := do
  match ← editor.buffer.insert editor.cursor.caret separator with
  | .error refusal => return .error refusal
  | .ok buffer =>
      let (lines, index) ← editor.lines.split editor.cursor.line editor.cursor.caret
      let opened ← lines.get index
      return .ok { editor with
        buffer
        lines
        cursor := { editor.cursor with caret := opened.start, line := index, x := 0 } }

/-- Remove the separator above the caret's line and fold the line into the one
above. -/
def mergeLine (editor : Editor κ) : Checked (Editor κ) := do
  if editor.cursor.line = 0 then throw .nothingAbove
  let above ← editor.lines.get (editor.cursor.line - 1)
  let (lines, index) ← editor.lines.merge editor.cursor.line
  refreshX { editor with
    buffer := editor.buffer.removeRange above.stop (above.stop + separatorLength)
    lines
    cursor := { editor.cursor with caret := above.stop, line := index } }

/-- Put each segment on a new line of its own.  On a refusal, what has been put
so far stays. -/
def streamLines (editor : Editor κ) :
    List (List Char) → Checked (Editor κ × Except EditError Unit)
  | [] => .ok (editor, .ok ())
  | segment :: later => do
      match ← editor.splitLine with
      | .error refusal => return (editor, .error refusal)
      | .ok opened =>
          match ← opened.insertRun segment with
          | .error refusal => return (opened, .error refusal)
          | .ok filled => filled.streamLines later

/-- Put segments at the caret, the first on the caret's line and each further
one on a new line. -/
def streamSegments (editor : Editor κ) (pieces : List (List Char)) :
    Checked (Editor κ × Except EditError Unit) :=
  match pieces with
  | [] => .ok (editor, .ok ())
  | first :: later => do
      match ← editor.insertRun first with
      | .error refusal => return (editor, .error refusal)
      | .ok filled => filled.streamLines later

end Editor

end EditorCore
