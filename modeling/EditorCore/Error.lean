/-!
Contract: why an operation with a document was refused, and what the user is
told.

Owns:
- the causes of a refusal, one inductive type for each collaborator: the
  clipboard, opening a document, and the editor itself;
- the text of each cause, and the status bar message that names the document.

Does not own: faults, which are broken promises and not answers.
-/

namespace EditorCore

/-- The largest document that is read, in bytes. -/
def maxDocumentBytes : Nat := 16 * 1024 * 1024

/-- Why a clipboard gave or took no text. -/
inductive ClipboardError where
  | unavailable (detail : String)
  | empty
  | writeUnsupported
deriving DecidableEq, Repr

namespace ClipboardError

def message : ClipboardError → String
  | unavailable detail => detail
  | empty => "clipboard is empty"
  | writeUnsupported => "writing to the clipboard is not supported"

end ClipboardError

/-- Why a document could not be opened. -/
inductive OpenError where
  | notFound
  | permissionDenied
  | isDirectory
  | binaryFile
  | tooLarge (bytes : Nat)
  /-- Any other failure, in the system's words. -/
  | system (detail : String)
deriving DecidableEq, Repr

namespace OpenError

def message : OpenError → String
  | notFound => "no such document"
  | permissionDenied => "not readable"
  | isDirectory => "is a directory"
  | binaryFile => "not a text document"
  | tooLarge bytes =>
      toString bytes ++ " bytes exceeds the " ++ toString maxDocumentBytes ++
        " byte document limit"
  | system detail => detail

/-- The status bar text: the document's name in front of the message. -/
def userMessage (name : String) (cause : OpenError) : String :=
  name ++ ": " ++ cause.message

end OpenError

/-- Why a load, a paste or a save was refused. -/
inductive EditError where
  | capacityExceeded (required capacity : Nat)
  | clipboard (cause : ClipboardError)
  | file (cause : OpenError)
  | writing (detail : String)
deriving DecidableEq, Repr

namespace EditError

def message : EditError → String
  | capacityExceeded required capacity =>
      "capacity exceeded (" ++ toString required ++ " characters required, capacity " ++
        toString capacity ++ ")"
  | clipboard cause => "clipboard unavailable: " ++ cause.message
  | file cause => cause.message
  | writing detail => detail

/-- The status bar text, which names the document. -/
def userMessage (name : String) : EditError → String
  | capacityExceeded required capacity =>
      name ++ " is too large for the editor (" ++ toString required ++
        " characters, capacity " ++ toString capacity ++ ")"
  | clipboard cause => "Clipboard unavailable: " ++ cause.message
  | file cause => cause.userMessage name
  | writing detail => "Error saving " ++ name ++ ": " ++ detail

end EditError

end EditorCore
