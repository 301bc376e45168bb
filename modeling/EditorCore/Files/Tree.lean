import EditorCore.Files.Path
import EditorCore.Files.System

/-!
Contract: a tree of files, the simplest file system.

Owns:
- files and directories by the names that lead to them;
- lookups, which walk along the pieces of a path and stop at the first that
  cannot be passed;
- reading, writing, making directories, listing and removing;
- the tree as a file system to run the program in.

Does not own: permissions and links.  There are none, so a tree stands for other
file systems only where these play no part.
-/

namespace EditorCore

/-- What stands at a place in the tree. -/
inductive FileEntry where
  | directory
  | file (content : FileContent)

/-- The names that lead to a place, from the root on. -/
abbrev Location := List String

/-- Files and directories, and the directory that paths start from.  The root
is a directory that has no entry. -/
structure FileTree where
  entries : List (Location × FileEntry)
  current : Location

namespace FileTree

/-! ## Lookups -/

def entry? (tree : FileTree) (location : Location) : Option FileEntry :=
  if location = [] then some .directory else tree.entries.lookup location

/-- The longest name, in bytes. -/
def longestName : Nat := 255

/-- The length in bytes from which on a path is too long. -/
def pathLimit : Nat := 4096

/-- The location of a name in a directory. -/
def child (tree : FileTree) (location : Location) (name : String) :
    Except SystemError Location :=
  if longestName < name.utf8ByteSize then .error .nameTooLong
  else if (tree.entry? (location ++ [name])).isSome then .ok (location ++ [name])
  else .error .notFound

/-- Follow one piece of a path from a location, which has to be a directory. -/
def follow (tree : FileTree) (location : Location) (piece : String) :
    Except SystemError Location :=
  match tree.entry? location with
  | none => .error .notFound
  | some (.file _) => .error .notDirectory
  | some .directory =>
      if piece = Path.here then .ok location
      else if piece = Path.above then .ok location.dropLast
      else tree.child location piece

def walk (tree : FileTree) (location : Location) (pieces : List String) :
    Except SystemError Location :=
  pieces.foldlM tree.follow location

/-- The pieces of a path that can be looked up at all. -/
def checkedPieces (path : String) : Except SystemError (List String) :=
  if path.toList.contains '\x00' then .error .nulInPath
  else if path = "" then .error .notFound
  else if pathLimit ≤ path.utf8ByteSize then .error .nameTooLong
  else .ok (Path.pieces path)

/-- Where a lookup of a path starts. -/
def base (tree : FileTree) (path : String) : Location :=
  if Path.isRooted path then [] else tree.current

/-- The location that a path leads to.  A slash at the end asks for a
directory. -/
def locate (tree : FileTree) (path : String) : Except SystemError Location := do
  let pieces ← checkedPieces path
  let closing := if Path.endsInSlash path then [Path.here] else []
  tree.walk (tree.base path) (pieces ++ closing)

def find (tree : FileTree) (path : String) : Except SystemError FileEntry := do
  match tree.entry? (← tree.locate path) with
  | some entry => .ok entry
  | none => .error .notFound

def isDirectory (tree : FileTree) (path : String) : Bool :=
  match tree.find path with
  | .ok .directory => true
  | _ => false

def read (tree : FileTree) (path : String) : Except SystemError FileContent := do
  match ← tree.find path with
  | .file content => .ok content
  | .directory => .error .isDirectory

def list (tree : FileTree) (path : String) : Except SystemError (List String) := do
  let location ← tree.locate path
  match tree.entry? location with
  | some .directory => .ok <| tree.entries.filterMap fun (other, _) =>
      if other ≠ [] ∧ other.dropLast = location then other.getLast? else none
  | some (.file _) => .error .notDirectory
  | none => .error .notFound

/-! ## Changes -/

def put (tree : FileTree) (location : Location) (entry : FileEntry) : FileTree :=
  { tree with entries := (location, entry) :: tree.entries.filter (·.1 ≠ location) }

/-- The directory that is to hold the last piece of a path, and that piece.
The root has no last piece. -/
def locateLast (tree : FileTree) (path : String) :
    Except SystemError (Location × Option String) := do
  let pieces ← checkedPieces path
  let location ← tree.walk (tree.base path) pieces.dropLast
  match tree.entry? location with
  | some .directory => .ok (location, pieces.getLast?)
  | some (.file _) => .error .notDirectory
  | none => .error .notFound

/-- Whether a piece leads to a directory by itself. -/
def isStep (piece : String) : Bool := piece = Path.here || piece = Path.above

/-- Write a file, which is made if there is none. -/
def write (tree : FileTree) (path : String) (content : FileContent) :
    Except SystemError FileTree := do
  let (location, last) ← tree.locateLast path
  match last with
  | none => .error .isDirectory
  | some name =>
      if isStep name || Path.endsInSlash path then .error .isDirectory
      else if longestName < name.utf8ByteSize then .error .nameTooLong
      else match tree.entry? (location ++ [name]) with
        | some .directory => .error .isDirectory
        | _ => .ok (tree.put (location ++ [name]) (.file content))

/-- Make a directory where nothing stands yet. -/
def makeDirectory (tree : FileTree) (path : String) : Except SystemError FileTree := do
  let (location, last) ← tree.locateLast path
  match last with
  | none => .error .alreadyExists
  | some name =>
      if isStep name then .error .alreadyExists
      else if longestName < name.utf8ByteSize then .error .nameTooLong
      else match tree.entry? (location ++ [name]) with
        | some _ => .error .alreadyExists
        | none => .ok (tree.put (location ++ [name]) .directory)

/-- Make the directory that the first of some paths leads to, and before it
those of the others as far as they are missing.  What is there already is no
failure if it is a directory. -/
def makeAll (tree : FileTree) : List String → FileTree × Except SystemError Unit
  | [] => (tree, .ok ())
  | path :: outer =>
      if path = "" then (tree, .ok ())
      else match tree.makeDirectory path with
        | .ok made => (made, .ok ())
        | .error .notFound =>
            match tree.makeAll outer with
            | (grown, .error cause) => (grown, .error cause)
            | (grown, .ok ()) =>
                match grown.makeDirectory path with
                | .ok made => (made, .ok ())
                | .error cause => (grown, if grown.isDirectory path then .ok () else .error cause)
        | .error cause => (tree, if tree.isDirectory path then .ok () else .error cause)

/-- Make the directory that a path leads to, with all that hold it.  Those that
were made stay when a later one fails. -/
def makeDirectories (tree : FileTree) (path : String) : FileTree × Except SystemError Unit :=
  tree.makeAll (Path.ancestors path)

/-- Remove what a path names, with all below it. -/
def remove (tree : FileTree) (path : String) : Except SystemError FileTree := do
  let location ← tree.locate path
  if (Path.pieces path).getLast?.all isStep then .error (.other "Invalid argument (os error 22)")
  else .ok { tree with entries := tree.entries.filter fun (other, _) => !location.isPrefixOf other }

/-- What shows of a path without reading. -/
def metadata (tree : FileTree) (path : String) : Except SystemError Metadata :=
  (tree.find path).map fun
    | .directory => ⟨true, 0⟩
    | .file content => ⟨false, content.size⟩

instance : FileSystem FileTree where
  view tree := { metadata := tree.metadata, read := tree.read }
  list := list
  write tree path content :=
    match tree.write path content with
    | .ok written => (written, .ok ())
    | .error cause => (tree, .error cause)
  makeDirectories := makeDirectories

end FileTree

end EditorCore
