import EditorCore.Cursor

/-!
Contract: what the program starts with.

Owns:
- what arguments ask for;
- the choice of output, and places counted from zero;
- the arguments that cannot be carried out.

Does not own: how arguments are written.
-/

namespace EditorCore.CommandLine

/-- What the arguments ask for. -/
structure Arguments where
  paths : List String
  /-- The line to go to, counted from one. -/
  line : Option Nat
  /-- The column to go to, counted from one. -/
  column : Option Nat
  typed : Option String
  /-- Write the active document back. -/
  write : Bool
  /-- Show the document as JSON. -/
  json : Bool
  /-- The font to measure with. -/
  font : Option String
deriving DecidableEq, Repr

def Arguments.none : Arguments :=
  { paths := [], line := .none, column := .none, typed := .none, write := false
    json := false, font := .none }

inductive Output where
  | text
  | json
deriving DecidableEq, Repr

/-- What the program starts with. -/
structure Startup where
  files : List String
  position : Option Position
  typed : Option String
  write : Bool
  output : Output
  font : Option String
deriving DecidableEq, Repr

/-- Why arguments cannot be carried out. -/
inductive StartupError where
  | directory (path : String)
  | nothingToWrite
deriving DecidableEq, Repr

def StartupError.message : StartupError → String
  | directory path => "Cannot open directory: " ++ path
  | nothingToWrite => "--write needs a file to write to"

namespace Startup

/-- A place counted from zero; the column is the first unless one is given. -/
def positionOf (line : Nat) (column : Option Nat) : Position :=
  ⟨line - 1, column.getD 1 - 1⟩

/-- The start that arguments ask for.  A column without a line is ignored. -/
def ofArguments (isDirectory : String → Bool) (arguments : Arguments) :
    Except StartupError Startup :=
  match arguments.paths.find? isDirectory with
  | some path => .error (.directory path)
  | none =>
      if arguments.write && arguments.paths.isEmpty then .error .nothingToWrite
      else .ok {
        files := arguments.paths
        position := arguments.line.map (positionOf · arguments.column)
        typed := arguments.typed
        write := arguments.write
        output := if arguments.json then .json else .text
        font := arguments.font }

end Startup

end EditorCore.CommandLine
