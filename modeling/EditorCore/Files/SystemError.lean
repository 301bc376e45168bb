import EditorCore.Error

/-!
Contract: what the system answers when it refuses to touch a file.

Owns:
- the causes, and the text that the system reports for each;
- the causes as failures to open a document.

Does not own: when each arises.
-/

namespace EditorCore

inductive SystemError where
  | notFound
  | permissionDenied
  | alreadyExists
  /-- A path leads on from something that is no directory. -/
  | notDirectory
  | isDirectory
  | nameTooLong
  /-- A path holds a NUL, which no name can. -/
  | nulInPath
  /-- Any other failure, in the system's words. -/
  | other (detail : String)
deriving DecidableEq, Repr

namespace SystemError

def message : SystemError → String
  | notFound => "No such file or directory (os error 2)"
  | permissionDenied => "Permission denied (os error 13)"
  | alreadyExists => "File exists (os error 17)"
  | notDirectory => "Not a directory (os error 20)"
  | isDirectory => "Is a directory (os error 21)"
  | nameTooLong => "File name too long (os error 36)"
  | nulInPath => "file name contained an unexpected NUL byte"
  | other detail => detail

end SystemError

/-- A refusal of the system as a failure to open a document. -/
def OpenError.ofSystem : SystemError → OpenError
  | .notFound => .notFound
  | .permissionDenied => .permissionDenied
  | cause => .system cause.message

end EditorCore
