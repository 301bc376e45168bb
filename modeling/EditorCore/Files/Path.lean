/-!
Contract: paths as text.

Owns:
- the pieces of a path between its slashes, which a lookup walks along;
- the parts of a path, which are its pieces less those that change nothing;
- the name of what a path leads to, the path of what holds it, and joining.

Does not own: what a path leads to.
-/

namespace EditorCore.Path

/-- The first piece of a text and the pieces after further slashes; pieces may
be empty. -/
def cutAtSlashes : List Char → List Char × List (List Char)
  | [] => ([], [])
  | char :: rest =>
      let after := cutAtSlashes rest
      if char = '/' then ([], after.1 :: after.2) else (char :: after.1, after.2)

/-- The pieces of a path between its slashes, empty ones left out. -/
def pieces (path : String) : List String :=
  let cut := cutAtSlashes path.toList
  ((cut.1 :: cut.2).filter (· ≠ [])).map String.ofList

def isRooted (path : String) : Bool := path.toList.head? = some '/'

def endsInSlash (path : String) : Bool := path.toList.getLast? = some '/'

/-- The piece that stays where it is. -/
def here : String := "."

/-- The piece that leads one level up. -/
def above : String := ".."

/-- A part of a path. -/
inductive Part where
  | root
  | here
  | above
  | name (text : String)
deriving DecidableEq, Repr

/-- The part that a piece is. -/
def Part.ofPiece (piece : String) : Part :=
  if piece = Path.here then here else if piece = Path.above then above else name piece

/-- The parts of a path.  A piece that stays where it is counts only as the
first of a path that does not start at the root. -/
def parts (path : String) : List Part :=
  let all := (pieces path).map Part.ofPiece
  if isRooted path then .root :: all.filter (· ≠ .here)
  else match all with
    | [] => []
    | first :: rest => first :: rest.filter (· ≠ .here)

/-- The last part of a path, if that is a name. -/
def name? (path : String) : Option String :=
  match (parts path).getLast? with
  | some (.name text) => some text
  | _ => none

/-- The start of a path that is a part of its own, the slash of the root or the
piece that stays where it is, and what follows. -/
def splitStart : List Char → List Char × List Char
  | '/' :: rest => (['/'], rest)
  | ['.'] => (['.'], [])
  | '.' :: '/' :: rest => (['.'], '/' :: rest)
  | all => ([], all)

/-- What follows the start of a path, read from its end, without the slashes
there and the pieces that stay where they are. -/
def trimEnd : List Char → List Char
  | '/' :: before => trimEnd before
  | ['.'] => []
  | '.' :: '/' :: before => trimEnd before
  | before => before

/-- The path of what holds the last part, written as it is inside the path.  The
root has none, and neither has the empty path. -/
def parent? (path : String) : Option String :=
  let (start, body) := splitStart path.toList
  match trimEnd body.reverse with
  | [] => if start = ['.'] then some "" else none
  | last =>
      some (String.ofList (start ++ (trimEnd (last.dropWhile (· ≠ '/'))).reverse))

/-- A path and the paths of what holds it, outwards, so many levels at most. -/
def outwards : Nat → String → List String
  | 0, path => [path]
  | levels + 1, path =>
      path :: match parent? path with
        | some parent => outwards levels parent
        | none => []

def ancestors (path : String) : List String :=
  outwards (parts path).length path

/-- A path below another one, or itself if it starts at the root. -/
def join (base path : String) : String :=
  if isRooted path then path
  else if base = "" || endsInSlash base then base ++ path
  else base ++ "/" ++ path

end EditorCore.Path
