import EditorCore.CommandLine.Dump
import EditorCore.CommandLine.Startup
import EditorCore.SettingsStore

/-!
Contract: a run of the program.

Owns:
- `Libraries`, what the program takes from libraries: the readers of arguments, of
  settings files and of fonts;
- the steps of a run: make the directory of log files, open the files, go to a
  place, type, show, and write;
- what a run prints of its own and the code that it ends with.

Does not own: the editor, the files, or the log.  What the log prints and the file
that it goes to are no part of a run here.
-/

namespace EditorCore.CommandLine

/-! ## Failures -/

/-- Why a run does not reach its end. -/
inductive Failure where
  | startup (cause : StartupError)
  | readingFont (path : String) (cause : SystemError)
  | unusableFont (detail : String)
  | opening (path : String) (cause : EditError)
  | saving (cause : EditError)
deriving DecidableEq, Repr

/-- What is reported for a failure, without the word that stands in front. -/
def Failure.message : Failure → String
  | startup cause => cause.message
  | readingFont path cause =>
      "Failed to read font " ++ path ++ "\n\nCaused by:\n    " ++ cause.message
  | unusableFont detail => "Failed to parse font: " ++ detail
  | opening path cause => cause.userMessage path
  | saving cause => cause.message

/-! ## Outcomes -/

/-- What a run leaves behind: the code that it ends with, and what it prints of its own
on its two outputs, next to the lines of the log. -/
structure Outcome where
  code : Nat
  output : String
  errors : String
deriving DecidableEq, Repr

namespace Outcome

def success (output : String) : Outcome := ⟨0, output, ""⟩

/-- A run that failed after some output. -/
def failure (output : String) (cause : Failure) : Outcome :=
  ⟨1, output, "Error: " ++ cause.message ++ "\n"⟩

/-- A run that a fault stopped. -/
def stopped : Outcome := ⟨101, "", ""⟩

/-- A run that reported something before all else. -/
def afterReport (report : String) (outcome : Outcome) : Outcome :=
  { outcome with errors := report ++ outcome.errors }

end Outcome

/-- What a run reports about its directory of log files: nothing if it is there.
Without one it goes on. -/
def logReport : Except StoreError String → String
  | .ok _ => ""
  | .error cause => "Warning: Could not initialize file logging: " ++ cause.message ++ "\n"

/-! ## Sessions -/

/-- A workspace with the files opened in order, the last one active.  The first
that cannot be opened ends the run. -/
def openAll {κ : Type} [Coordinate κ] (load : String → Except EditError String)
    (workspace : Workspace κ) : List String → Checked (Except Failure (Workspace κ))
  | [] => .ok (.ok workspace)
  | path :: later => do
      match ← workspace.openFile load path with
      | (_, .error cause) => return .error (.opening path cause)
      | (opened, .ok ()) => openAll load opened later

def typeAll {κ : Type} [Coordinate κ] (editor : Editor κ) : List Char → Checked (Editor κ)
  | [] => .ok editor
  | char :: later => do
      let (typed, _) ← editor.onCharacter char
      typeAll typed later

/-- Go to the place to start at, and type the text to type. -/
def prepared {κ : Type} [Coordinate κ] (startup : Startup) (editor : Editor κ) :
    Checked (Editor κ) := do
  let placed ← match startup.position with
    | some position => editor.moveToPosition position
    | none => .ok editor
  typeAll placed (startup.typed.getD "").toList

/-- A workspace with a document: an empty one if there was none. -/
def orUntitled {κ : Type} [Coordinate κ] (workspace : Workspace κ) : Checked (Workspace κ) :=
  if workspace.tabs.isEmpty then do
    let (opened, _) ← workspace.openText "untitled" none ""
    return opened
  else .ok workspace

/-- The workspace at the end of a run: the files opened, or an empty document
in place of none, and the active one prepared. -/
def session {κ : Type} [Coordinate κ] (settings : Settings κ) (metrics : GlyphMetrics κ)
    (load : String → Except EditError String) (startup : Startup) :
    Checked (Except Failure (Workspace κ)) := do
  match ← openAll load (.empty settings metrics) startup.files with
  | .error cause => return .error cause
  | .ok opened => do
      let workspace ← orUntitled opened
      match workspace.active? with
      | none => return .ok workspace
      | some tab => return .ok (workspace.withEditor (← prepared startup tab.editor))

/-- The active document in the form that is asked for. -/
def shown (output : Output) (workspace : Workspace Float32) : Checked String :=
  match workspace.active? with
  | none => .ok ""
  | some tab =>
      match output with
      | .text => listing tab.name tab.editor
      | .json => jsonDump tab.name tab.editor

/-! ## Runs -/

/-- What a run does to the outside: it prints, and it may have a document to
write, or a failure to report. -/
structure Effects where
  output : String
  write : Option (String × String)
  failure : Option Failure

namespace Effects

/-- A run that ends before it has printed anything. -/
def failed (cause : Failure) : Effects := ⟨"", none, some cause⟩

/-- The outcome of a run without a document to write, or with one that has been
written. -/
def outcome (effects : Effects) : Outcome :=
  match effects.failure with
  | none => .success effects.output
  | some cause => .failure effects.output cause

end Effects

/-- The outcome once the document to write has been written or has not.  A run
fails after it has printed if that could not be done. -/
def Effects.concluded (effects : Effects) : Except EditError Unit → Outcome
  | .ok () => effects.outcome
  | .error cause => .failure effects.output (.saving cause)

/-- What the program takes from libraries. -/
structure Libraries where
  /-- What arguments ask for, or the outcome in place of a run. -/
  arguments : List String → Except Outcome Arguments
  /-- The settings that a settings file describes, if it does. -/
  settings : String → Option (Settings Float32)
  /-- The font that a file holds, or why it holds none. -/
  font : FileContent → Except String (Font Float32)

/-- What a run finds around it. -/
structure Surroundings where
  view : FileView
  settings : Settings Float32
  font : FileContent → Except String (Font Float32)

namespace Surroundings

/-- What a run finds where files can be read. -/
def found (libraries : Libraries) (view : FileView) (environment : Environment) :
    Surroundings where
  view
  settings := view.settings libraries.settings environment
  font := libraries.font

/-- The glyph metrics to measure with: fixed-width cells unless there is a font. -/
def metrics (around : Surroundings) : Option String → Except Failure (GlyphMetrics Float32)
  | none => .ok (.monospace GlyphMetrics.standardCell)
  | some path =>
      match around.view.read path with
      | .error cause => .error (.readingFont path cause)
      | .ok content =>
          match around.font content with
          | .error detail => .error (.unusableFont detail)
          | .ok font => .ok (.ofFont font)

end Surroundings

def runStartup (around : Surroundings) (startup : Startup) : Checked Effects :=
  match around.metrics startup.font with
  | .error cause => .ok (.failed cause)
  | .ok metrics => do
      match ← session around.settings metrics around.view.loadDocument startup with
      | .error cause => return .failed cause
      | .ok workspace => do
          let output ← shown startup.output workspace
          if startup.write then
            match workspace.saveRequest with
            | .ok request => return ⟨output, some request, none⟩
            | .error cause => return ⟨output, none, some (.saving cause)⟩
          else return ⟨output, none, none⟩

def runArguments (around : Surroundings) (arguments : Arguments) : Checked Effects :=
  match Startup.ofArguments around.view.isDirectory arguments with
  | .error cause => .ok (.failed (.startup cause))
  | .ok startup => runStartup around startup

section

variable {σ : Type} [FileSystem σ]

/-- Carry out what a run does to files. -/
def Effects.carryOut (effects : Effects) (files : σ) : σ × Outcome :=
  match effects.write with
  | none => (files, effects.outcome)
  | some (path, text) =>
      let (after, result) := FileSystem.saveDocument files path text
      (after, effects.concluded result)

/-- A run after the log has been set up. -/
def runPrepared (libraries : Libraries) (files : σ) (environment : Environment)
    (texts : List String) : σ × Outcome :=
  match libraries.arguments texts with
  | .error outcome => (files, outcome)
  | .ok arguments =>
      let around := Surroundings.found libraries (FileSystem.view files) environment
      match runArguments around arguments with
      | .error _ => (files, .stopped)
      | .ok effects => effects.carryOut files

/-- A run.  The directory of log files is made before the arguments are read, so
that they can name it. -/
def run (libraries : Libraries) (files : σ) (environment : Environment) (texts : List String) :
    σ × Outcome :=
  let (prepared, logs) := FileSystem.ensureLogs files environment
  let (after, outcome) := runPrepared libraries prepared environment texts
  (after, outcome.afterReport (logReport logs))

end

end EditorCore.CommandLine
