import EditorCore.CommandLine.Program
import EditorCore.SettingsFile

/-!
Contract: readers for everyday input, to run the program with.

Owns:
- options, flags and paths, how a list of arguments of the usual forms gives them, and
  what is printed when arguments give no run;
- `Libraries.everyday`, which reads such arguments and plain settings files, and no
  fonts.

Does not own: what the program does with arguments, or the readers that it is built
with.  The program takes those as a parameter, and these stand in for them where it is
run.

A value that is given as an argument of its own is looked at only when it is
complete, which the next argument shows.  So of two faults, an argument that is
not known wins over such a value in front of it.
-/

namespace EditorCore.CommandLine

/-! ## Outcomes without a run -/

/-- Why arguments give no run of the program. -/
inductive ArgumentError where
  /-- An argument looks like an option but is none. -/
  | unknown
  | repeated
  | unneededValue
  /-- An option has no value, or one that may not be empty is. -/
  | missingValue
  /-- A value is not of its option's kind. -/
  | invalidValue
  | helpWanted
  | versionWanted
deriving DecidableEq, Repr

namespace ArgumentError

def versionText : String := "textbox 0.1.0\n"

def helpText : String :=
  "Load documents into the editing engine and inspect lines and tokens\n" ++
  "\n" ++
  "Usage: textbox [OPTIONS] [PATHS]...\n" ++
  "\n" ++
  "Arguments:\n" ++
  "  [PATHS]...  Files to open, one tab each; the last one is active\n" ++
  "\n" ++
  "Options:\n" ++
  "      --line <N>     Go to line N in the active tab\n" ++
  "      --column <N>   Go to column N (used with --line)\n" ++
  "      --type <TEXT>  Type TEXT at the caret (\\n splits lines, \\t indents)\n" ++
  "  -w, --write        Write the active tab back to its file after typing\n" ++
  "      --json         Dump lines and tokens as JSON\n" ++
  "      --font <FILE>  Measure glyphs with this TTF/OTF font instead of fixed-width cells\n" ++
  "  -h, --help         Print help\n" ++
  "  -V, --version      Print version\n"

/-- What is printed for arguments that give no run. -/
def message : ArgumentError → String
  | unknown => "error: unexpected argument found\n"
  | repeated => "error: an argument cannot be used multiple times\n"
  | unneededValue => "error: unexpected value for an option found\n"
  | missingValue => "error: a value is required but none was supplied\n"
  | invalidValue => "error: invalid value for an option\n"
  | helpWanted => helpText
  | versionWanted => versionText

/-- What is left of a program whose arguments give no run. -/
def outcome : ArgumentError → Outcome
  | helpWanted => .success helpText
  | versionWanted => .success versionText
  | cause => ⟨2, "", cause.message⟩

end ArgumentError

/-! ## Options -/

inductive Setting where
  | line
  | column
  | typed
  | font
deriving DecidableEq, Repr

inductive Flag where
  | write
  | json
  | help
  | version
deriving DecidableEq, Repr

def settingOf? (name : String) : Option Setting :=
  [("line", .line), ("column", .column), ("type", .typed), ("font", .font)].lookup name

def flagOf? (name : String) : Option Flag :=
  [("write", .write), ("json", .json), ("help", .help), ("version", .version)].lookup name

def flagOfLetter? (letter : Char) : Option Flag :=
  [('w', .write), ('h', .help), ('V', .version)].lookup letter

/-! ## Values -/

/-- A count that a word holds: decimal digits, perhaps behind a plus. -/
def count? (text : String) : Option Nat :=
  let digits := match text.toList with
    | '+' :: rest => rest
    | all => all
  if digits = [] ∨ !digits.all Char.isDigit then .none
  else
    let value := digits.foldl (fun value digit => value * 10 + (digit.toNat - '0'.toNat)) 0
    if value ≤ Word.largest then some value else .none

/-- A count, or the cause that a text is none. -/
def count (text : String) : Except ArgumentError Nat :=
  match count? text with
  | some value => .ok value
  | .none => .error .invalidValue

def path (text : String) : Except ArgumentError String :=
  if text = "" then .error .missingValue else .ok text

/-- A value that was not there before. -/
def once {α : Type} (before : Option α) (value : Except ArgumentError α) :
    Except ArgumentError (Option α) :=
  match before with
  | some _ => .error .repeated
  | .none => value.map some

namespace Arguments

def set (arguments : Arguments) (setting : Setting) (text : String) :
    Except ArgumentError Arguments := do
  match setting with
  | .line => return { arguments with line := ← once arguments.line (count text) }
  | .column => return { arguments with column := ← once arguments.column (count text) }
  | .typed => return { arguments with typed := ← once arguments.typed (.ok text) }
  | .font => return { arguments with font := ← once arguments.font (path text) }

/-- Raise a flag.  Usage and version are asked for at once. -/
def raise (arguments : Arguments) (flag : Flag) : Except ArgumentError Arguments :=
  match flag with
  | .write => if arguments.write then .error .repeated else .ok { arguments with write := true }
  | .json => if arguments.json then .error .repeated else .ok { arguments with json := true }
  | .help => .error .helpWanted
  | .version => .error .versionWanted

end Arguments

/-! ## Reading -/

/-- What has been read but not looked at. -/
inductive Pending where
  | nothing
  /-- An option, and its value once that has come. -/
  | setting (setting : Setting) (value : Option String)
  | paths (paths : List String)

structure Reading where
  arguments : Arguments
  pending : Pending

namespace Reading

def settled (reading : Reading) : Except ArgumentError Arguments :=
  match reading.pending with
  | .nothing => .ok reading.arguments
  | .setting _ .none => .error .missingValue
  | .setting setting (some text) => reading.arguments.set setting text
  | .paths paths => do
      return { reading.arguments with
        paths := reading.arguments.paths ++ (← paths.mapM CommandLine.path) }

/-- Add a path.  Paths in a row are looked at together. -/
def addPath (reading : Reading) (path : String) : Except ArgumentError Reading := do
  match reading.pending with
  | .paths paths => return { reading with pending := .paths (paths ++ [path]) }
  | _ => return ⟨← reading.settled, .paths [path]⟩

def raise (reading : Reading) (flag : Flag) : Except ArgumentError Reading := do
  return ⟨← (← reading.settled).raise flag, .nothing⟩

def raiseAll (reading : Reading) (letters : List Char) : Except ArgumentError Reading :=
  letters.foldlM (fun reading letter =>
    match flagOfLetter? letter with
    | some flag => reading.raise flag
    | .none => .error .unknown) reading

/-- Take a long name, with a value if there is one behind an equals sign. -/
def takeLong (reading : Reading) (name : String) (value : Option String) :
    Except ArgumentError Reading := do
  match settingOf? name, flagOf? name, value with
  | some setting, _, some text => return ⟨← (← reading.settled).set setting text, .nothing⟩
  | some setting, _, .none => return ⟨← reading.settled, .setting setting .none⟩
  | .none, some _, some _ => .error .unneededValue
  | .none, some flag, .none => reading.raise flag
  | .none, .none, _ => .error .unknown

/-- A long option's name, and its value behind the first equals sign. -/
def splitLong (text : List Char) : String × Option String :=
  let name := String.ofList (text.takeWhile (· ≠ '='))
  match text.dropWhile (· ≠ '=') with
  | [] => (name, .none)
  | _ :: value => (name, some (String.ofList value))

/-- Take an argument that is not behind the two dashes which end the options. -/
def take (reading : Reading) (text : String) : Except ArgumentError Reading :=
  match text.toList with
  | '-' :: '-' :: long =>
      let (name, value) := splitLong long
      reading.takeLong name value
  | '-' :: letter :: letters => reading.raiseAll (letter :: letters)
  | _ =>
      match reading.pending with
      | .setting setting .none => .ok { reading with pending := .setting setting (some text) }
      | _ => reading.addPath text

/-- Take all arguments.  Behind two dashes there are only paths. -/
def takeAll (reading : Reading) : List String → Except ArgumentError Reading
  | [] => .ok reading
  | "--" :: rest => rest.foldlM addPath reading
  | text :: rest => do (← reading.take text).takeAll rest

end Reading

/-- What a list of arguments asks for. -/
def Arguments.read (texts : List String) : Except ArgumentError Arguments := do
  (← Reading.takeAll ⟨.none, .nothing⟩ texts).settled

/-- Readers for everyday input: plain arguments and plain settings.  No file is a font
to them. -/
def Libraries.everyday : Libraries where
  arguments texts := (Arguments.read texts).mapError ArgumentError.outcome
  settings := Settings.ofYaml?
  font _ := .error
    "Face data must start with 0x00010000, 0x74727565, 0x4F54544F or 0x74746366."

end EditorCore.CommandLine
