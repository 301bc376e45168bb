import EditorCore.Editor.State

/-!
Contract: what a log line says about a change of the caret.

Owns: `CaretSnapshot`, the numbers that are compared, and the description of
what differs between two of them.

Does not own: the log.
-/

namespace EditorCore

/-- The caret of an editor at one moment. -/
structure CaretSnapshot where
  caret : Nat
  line : Nat
  column : Nat
  indentLevel : Nat
  lineCount : Nat
deriving DecidableEq, Repr

namespace CaretSnapshot

def ofEditor {κ : Type} [Coordinate κ] (editor : Editor κ) : Checked CaretSnapshot := do
  return {
    caret := editor.cursor.caret
    line := editor.cursor.line
    column := ← editor.currentColumn
    indentLevel := editor.cursor.indentLevel
    lineCount := editor.lines.size }

def arrow (before after : String) : String := before ++ " → " ++ after

/-- A position in parentheses. -/
def place (snapshot : CaretSnapshot) : String :=
  "(" ++ toString snapshot.line ++ "," ++ toString snapshot.column ++ ")"

/-- The changes in the order position, lines, indentation.  An offset that has
changed alone is not worth telling. -/
def changes (before after : CaretSnapshot) : List String :=
  (if before.line ≠ after.line ∨ before.column ≠ after.column then
    [arrow before.place after.place] else []) ++
  (if before.lineCount ≠ after.lineCount then
    ["lines: " ++ arrow (toString before.lineCount) (toString after.lineCount)] else []) ++
  (if before.indentLevel ≠ after.indentLevel then
    ["indent: " ++ arrow (toString before.indentLevel) (toString after.indentLevel)] else [])

/-- The description of all changes, if there are any. -/
def diff (before after : CaretSnapshot) : Option String :=
  match changes before after with
  | [] => none
  | told => some ("; ".intercalate told)

end CaretSnapshot

end EditorCore
