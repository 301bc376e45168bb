import EditorCore.Settings
import EditorCore.Yaml.Node
import EditorCore.Yaml.Written

/-!
Contract: settings as a file.

Owns:
- the fields of the file and how their values are read;
- `Settings.ofYaml?`, which gives fields that are not there their defaults;
- `Settings.toYaml`, which writes all fields.

Does not own: where the file is kept, and the format as a whole.  Plain files are
read; anchors, aliases, tags and directives are taken for no settings.  The program
takes its reader of settings from a library, which this one stands in for.
-/

namespace EditorCore

open Yaml (Node)

namespace Yaml

/-! ## Values -/

namespace Node

def plain? : Node → Option (List Char)
  | .scalar text true => some text
  | _ => none

def text? : Node → Option (List Char)
  | .scalar text _ => some text
  | _ => none

/-- The items of a list; a value that is left out is the empty list. -/
def items? : Node → Option (List Node)
  | .sequence items => some items
  | .scalar [] true => some []
  | _ => none

def strings? (node : Node) : Option (List String) := do
  (← node.items?).mapM fun item => item.text?.map String.ofList

def chars? (node : Node) : Option (List Char) := do
  (← node.items?).mapM fun item => do
    match ← item.text? with
    | [char] => some char
    | _ => none

/-- A count that a word holds. -/
def count? (node : Node) : Option Nat := node.plain? >>= word?

def flag? (node : Node) : Option Bool := node.plain? >>= bool?

/-- A float, rounded twice: to double and to single precision. -/
def coordinate? (node : Node) : Option Float32 := do
  some (← node.plain? >>= float?).toFloat32

end Node

end Yaml

namespace Settings

/-! ## Reading -/

/-- The fields of a settings file, in the order they are written in. -/
def fieldNames : List String := [
  "capacity", "tab_size", "indent_with_tabs", "auto_indent", "multiline", "syntax_highlight",
  "text_size", "line_padding", "margin", "keywords", "word_terminals"]

/-- Settings with a field set; a name that is no field changes nothing. -/
def withField (settings : Settings Float32) (name : String) (value : Node) :
    Option (Settings Float32) :=
  match name with
  | "capacity" => value.count?.map fun capacity => { settings with capacity }
  | "tab_size" => value.count?.map fun tabSize => { settings with tabSize }
  | "indent_with_tabs" => value.flag?.map fun indentWithTabs => { settings with indentWithTabs }
  | "auto_indent" => value.flag?.map fun autoIndent => { settings with autoIndent }
  | "multiline" => value.flag?.map fun multiline => { settings with multiline }
  | "syntax_highlight" => value.flag?.map fun syntaxHighlight => { settings with syntaxHighlight }
  | "text_size" => value.coordinate?.map fun textSize => { settings with textSize }
  | "line_padding" => value.coordinate?.map fun linePadding => { settings with linePadding }
  | "margin" => value.coordinate?.map fun margin => { settings with margin }
  | "keywords" => value.strings?.map fun keywords => { settings with keywords }
  | "word_terminals" => value.chars?.map fun wordTerminals => { settings with wordTerminals }
  | _ => some settings

/-- The settings that named values describe.  No field may be given twice. -/
def ofFields? (fields : List (String × Node)) : Option (Settings Float32) :=
  if ((fields.map Prod.fst).filter fieldNames.contains).Nodup then
    fields.foldlM (fun settings (name, value) => settings.withField name value) standard
  else none

/-- The settings that a document describes: a mapping with scalars as keys, or
nothing at all. -/
def ofDocument? : Node → Option (Settings Float32)
  | .scalar [] true => some standard
  | .mapping entries => do
      ofFields? (← entries.mapM fun (key, value) => do
        some (String.ofList (← key.text?), value))
  | _ => none

def ofYaml? (text : String) : Option (Settings Float32) := do
  ofDocument? (← Node.ofText? text.toList)

/-! ## Writing -/

/-- A field with a value on its line. -/
def writtenField (name : String) (value : List Char) : List Char :=
  name.toList ++ [':', ' '] ++ Yaml.endedLine value

def writtenList (name : String) (items : List (List Char)) : List Char :=
  if items = [] then writtenField name ['[', ']']
  else name.toList ++ [':', '\n'] ++ items.flatMap fun item => ['-', ' '] ++ item

def toYaml (settings : Settings Float32) : String :=
  let keywords := settings.keywords.map String.toList
  let fields := [
    writtenField "capacity" (toString settings.capacity).toList,
    writtenField "tab_size" (toString settings.tabSize).toList,
    writtenField "indent_with_tabs" (toString settings.indentWithTabs).toList,
    writtenField "auto_indent" (toString settings.autoIndent).toList,
    writtenField "multiline" (toString settings.multiline).toList,
    writtenField "syntax_highlight" (toString settings.syntaxHighlight).toList,
    writtenField "text_size" (Yaml.writtenFloat settings.textSize),
    writtenField "line_padding" (Yaml.writtenFloat settings.linePadding),
    writtenField "margin" (Yaml.writtenFloat settings.margin),
    writtenList "keywords" (keywords.map Yaml.writtenText),
    writtenList "word_terminals" (settings.wordTerminals.map Yaml.writtenChar)]
  String.ofList fields.flatten

end Settings

end EditorCore
