import EditorCore.Files.Document
import EditorCore.Settings

/-!
Contract: where settings and logs are kept.

Owns:
- the directories of the application, found through the environment;
- making them;
- loading settings, which falls back to the defaults, and saving them.

Does not own: the form of the settings file.
-/

namespace EditorCore

/-- What the surroundings say about the user's directories. -/
structure Environment where
  /-- The directory for settings, if one is chosen. -/
  configHome : Option String
  /-- The user's home; an empty text is none. -/
  home : Option String
  /-- The home that the user's account names, which stands in for a missing
  one. -/
  accountHome : Option String

/-- Why a directory or a settings file could not be had. -/
inductive StoreError where
  | noDirectory
  | directory (path : String) (cause : SystemError)
  | settingsDirectory (cause : SystemError)
  | settingsFile (path : String) (cause : SystemError)
deriving DecidableEq, Repr

namespace StoreError

def message : StoreError → String
  | noDirectory => "No config directory available"
  | directory path cause => "Failed to create directory " ++ path ++ ": " ++ cause.message
  | settingsDirectory cause => "Failed to create config directory: " ++ cause.message
  | settingsFile path cause => "Failed to write config to " ++ path ++ ": " ++ cause.message

end StoreError

/-- The application's name among the directories of others. -/
def applicationDirectory : String := "textbox"

/-- The name that the names of all log files start with. -/
def logName : String := "textbox.log"

namespace Environment

/-! ## Places -/

def homeDirectory? (environment : Environment) : Option String :=
  (environment.home.filter (· ≠ "")).or environment.accountHome

/-- The directory of the application: in the chosen directory for settings, or
else in the one below the user's home. -/
def directory? (environment : Environment) : Option String :=
  let config := environment.configHome.or <|
    environment.homeDirectory?.map (Path.join · ".config")
  config.map (Path.join · applicationDirectory)

def settingsFile? (environment : Environment) : Option String :=
  environment.directory?.map (Path.join · "config.yaml")

def logDirectory? (environment : Environment) : Option String :=
  environment.directory?.map (Path.join · "logs")

end Environment

/-! ## Settings -/

/-- The settings that an attempt to read the settings file gives.  Those of a
file that cannot be read or does not describe settings are the defaults. -/
def storedSettings (described : String → Option (Settings Float32))
    (found : Except SystemError FileContent) : Settings Float32 :=
  (found.toOption.bind fun content => content.text?.bind described).getD Settings.standard

/-- The settings in use: those of the settings file, if there is one. -/
def FileView.settings (view : FileView) (described : String → Option (Settings Float32))
    (environment : Environment) : Settings Float32 :=
  match environment.settingsFile? with
  | none => Settings.standard
  | some path =>
      match view.metadata path with
      | .error _ => Settings.standard
      | .ok _ => storedSettings described (view.read path)

namespace FileSystem

variable {σ : Type} [FileSystem σ]

/-! ## Log files -/

/-- The last of some texts, in the order of their characters. -/
def latest? : List String → Option String
  | [] => none
  | text :: rest =>
      match latest? rest with
      | some later => some (if text < later then later else text)
      | none => some text

/-- The latest log file by name.  Without one, the name that logs start with. -/
def logFile? (files : σ) (environment : Environment) : Option String := do
  let directory ← environment.logDirectory?
  let names := ((list files directory).toOption.getD []).filter fun name =>
    logName.toList.isPrefixOf name.toList
  some (Path.join directory ((latest? names).getD logName))

/-! ## Directories -/

/-- Make a directory with all that hold it. -/
def ensureDirectory (files : σ) (path : String) : σ × Except StoreError String :=
  match makeDirectories files path with
  | (grown, .ok ()) => (grown, .ok path)
  | (grown, .error cause) => (grown, .error (.directory path cause))

def ensureApplication (files : σ) (environment : Environment) : σ × Except StoreError String :=
  match environment.directory? with
  | none => (files, .error .noDirectory)
  | some path => ensureDirectory files path

/-- Make the directory of log files, after that of the application. -/
def ensureLogs (files : σ) (environment : Environment) : σ × Except StoreError String :=
  match ensureApplication files environment with
  | (grown, .ok path) => ensureDirectory grown (Path.join path "logs")
  | failed => failed

/-- Write the settings file, and make its directory before. -/
def saveSettings (files : σ) (environment : Environment) (written : String) :
    σ × Except StoreError Unit :=
  match environment.settingsFile? with
  | none => (files, .error .noDirectory)
  | some path =>
      match makeDirectories files ((Path.parent? path).getD "") with
      | (grown, .error cause) => (grown, .error (.settingsDirectory cause))
      | (grown, .ok ()) =>
          match write grown path (.ofText written) with
          | (after, .error cause) => (after, .error (.settingsFile path cause))
          | (after, .ok ()) => (after, .ok ())

end FileSystem

end EditorCore
