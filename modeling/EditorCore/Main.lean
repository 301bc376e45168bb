import EditorCore.CommandLine.Everyday

/-!
Contract: the program at the system's files and outputs.

Owns: making the directory of log files, reading the files that arguments name,
printing, and writing one file.

Does not own: any decision; `CommandLine` has made them all.
-/

namespace EditorCore.CommandLine

/-- A failure of the system under the name that the program knows it by.  Codes
come with either sign. -/
def systemErrorOf : IO.Error → SystemError
  | .noFileOrDirectory _ _ _ => .notFound
  | .permissionDenied _ _ _ => .permissionDenied
  | .alreadyExists _ _ _ => .alreadyExists
  | .inappropriateType _ code _ =>
      if code = 21 ∨ code = -21 then .isDirectory else .notDirectory
  | .invalidArgument path code detail =>
      if code = 36 ∨ code = -36 then .nameTooLong
      else .other (toString (IO.Error.invalidArgument path code detail))
  | cause => .other (toString cause)

def readFile (path : String) : IO (Except SystemError FileContent) := do
  try return .ok ⟨← IO.FS.readBinFile path, 0⟩
  catch cause => return .error (systemErrorOf cause)

def writeDocument (path text : String) : IO (Except EditError Unit) := do
  try
    IO.FS.writeBinFile path text.toUTF8
    return .ok ()
  catch cause => return .error (.ofWriting path (systemErrorOf cause))

/-- Make a directory with all that hold it, if those are missing. -/
def makeDirectory (path : String) : IO (Except StoreError String) := do
  try
    try IO.FS.createDir path
    catch cause =>
      if [.notFound, .alreadyExists].contains (systemErrorOf cause) then
        IO.FS.createDirAll path
      else throw cause
    return .ok path
  catch cause => return .error (.directory path (systemErrorOf cause))

/-- Make the directory of log files, after that of the application. -/
def makeLogs (environment : Environment) : IO (Except StoreError String) := do
  match environment.directory? with
  | none => return .error .noDirectory
  | some directory =>
      match ← makeDirectory directory with
      | .ok path => makeDirectory (Path.join path "logs")
      | failed => return failed

def readEnvironment : IO Environment :=
  return ⟨← IO.getEnv "XDG_CONFIG_HOME", ← IO.getEnv "HOME", none⟩

/-- Answers about files by what reading them has answered. -/
def FileView.ofReading (read : String → Except SystemError FileContent) : FileView where
  read
  metadata path := match read path with
    | .ok content => .ok ⟨false, content.size⟩
    | .error .isDirectory => .ok ⟨true, 0⟩
    | .error cause => .error cause

def leave (outcome : Outcome) : IO UInt32 := do
  IO.eprint outcome.errors
  return outcome.code.toUInt32

/-- Print and write what a run asks for. -/
def perform (effects : Effects) : IO UInt32 := do
  IO.print effects.output
  match effects.write with
  | none => leave effects.outcome
  | some (path, text) => leave (effects.concluded (← writeDocument path text))

end EditorCore.CommandLine

open EditorCore CommandLine

def main (texts : List String) : IO UInt32 := do
  let environment ← readEnvironment
  let libraries := Libraries.everyday
  IO.eprint (logReport (← makeLogs environment))
  match libraries.arguments texts with
  | .error outcome =>
      IO.print outcome.output
      leave outcome
  | .ok arguments =>
      let named := arguments.paths ++ arguments.font.toList ++ environment.settingsFile?.toList
      let answers ← named.mapM fun path => return (path, ← readFile path)
      let view := FileView.ofReading fun path => (answers.lookup path).getD (.error .notFound)
      match runArguments (.found libraries view environment) arguments with
      | .error _ => leave .stopped
      | .ok effects => perform effects
