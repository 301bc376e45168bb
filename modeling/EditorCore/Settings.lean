import EditorCore.IndentUnit
import EditorCore.Lexer

/-!
Contract: what a user can choose about the editor.

Owns:
- `Settings`, the choices as they are stored, and their defaults;
- the unit that one step of indentation inserts and the distance of lines;
- `Options`, the choices as the editor uses them.

Does not own: the file that settings are kept in.
-/

namespace EditorCore

/-- The characters at which word motion stops by default. -/
def defaultWordTerminals : List Char := [' ', '.', '/', '{', '[', '(', '\t', '\r', '\n']

/-- The choices of a user. -/
structure Settings (κ : Type) where
  capacity : Nat
  tabSize : Nat
  indentWithTabs : Bool
  autoIndent : Bool
  /-- Without it, Enter does nothing and pastes with breaks are refused. -/
  multiline : Bool
  syntaxHighlight : Bool
  textSize : κ
  linePadding : κ
  margin : κ
  keywords : List String
  wordTerminals : List Char
deriving BEq, DecidableEq, Repr

namespace Settings

variable {κ : Type}

/-- The choices of a user who has made none. -/
def standard [Coordinate κ] : Settings κ where
  capacity := 4 * 1024 * 1024
  tabSize := 2
  indentWithTabs := false
  autoIndent := true
  multiline := true
  syntaxHighlight := true
  textSize := Coordinate.ofCount 12
  linePadding := 0
  margin := Coordinate.ofCount 10
  keywords := defaultKeywords
  wordTerminals := defaultWordTerminals

/-- What one step of indentation inserts. -/
def indentUnit (settings : Settings κ) : IndentUnit :=
  if settings.indentWithTabs then .tab else .spaces settings.tabSize

/-- The distance between the tops of two lines. -/
def lineHeight [Coordinate κ] (settings : Settings κ) : κ :=
  settings.textSize + settings.linePadding

end Settings

/-- The choices in the form that the editor works with. -/
structure Options (κ : Type) where
  indentUnit : IndentUnit
  tabSize : Nat
  autoIndent : Bool
  multiline : Bool
  syntaxHighlight : Bool
  textSize : κ
  margin : κ
  lineHeight : κ
  wordTerminals : List Char
deriving DecidableEq, Repr

namespace Options

/-- Resolve settings: a unit has at least one space. -/
def ofSettings {κ : Type} [Coordinate κ] (settings : Settings κ) : Options κ where
  indentUnit := settings.indentUnit
  tabSize := max settings.tabSize 1
  autoIndent := settings.autoIndent
  multiline := settings.multiline
  syntaxHighlight := settings.syntaxHighlight
  textSize := settings.textSize
  margin := settings.margin
  lineHeight := settings.lineHeight
  wordTerminals := settings.wordTerminals

end Options

end EditorCore
