import EditorCore.Files.Path
import EditorCore.Files.System

/-!
Contract: documents as files.

Owns:
- which files are documents: no directories, no large files, and only UTF-8
  without zero bytes;
- loading and saving a document;
- the name that a document goes by.

Does not own: what becomes of a document once it is loaded.
-/

namespace EditorCore

/-- The name of the document at a path: the last part, or the whole path if
that is no name. -/
def documentName (path : String) : String :=
  (Path.name? path).getD path

/-- The document that a file's bytes are. -/
def FileContent.document? (content : FileContent) : Except OpenError String :=
  if content.hasZero then .error .binaryFile
  else match content.text? with
    | some text => .ok text
    | none => .error .binaryFile

namespace FileView

def isDirectory (view : FileView) (path : String) : Bool :=
  match view.metadata path with
  | .ok found => found.isDirectory
  | .error _ => false

/-- The document at a path.  Its size is looked at before its bytes. -/
def readDocument (view : FileView) (path : String) : Except OpenError String := do
  let found ← (view.metadata path).mapError OpenError.ofSystem
  if found.isDirectory then .error .isDirectory
  else if maxDocumentBytes < found.size then .error (.tooLarge found.size)
  else do
    let content ← (view.read path).mapError OpenError.ofSystem
    content.document?

def loadDocument (view : FileView) (path : String) : Except EditError String :=
  (view.readDocument path).mapError .file

end FileView

/-- The refusal that is reported when a document cannot be written. -/
def EditError.ofWriting (path : String) (cause : SystemError) : EditError :=
  .writing ("Failed to write " ++ path ++ ": " ++ cause.message)

/-- Write a document's text. -/
def FileSystem.saveDocument {σ : Type} [FileSystem σ] (files : σ) (path text : String) :
    σ × Except EditError Unit :=
  let (after, result) := write files path (.ofText text)
  (after, result.mapError (.ofWriting path))

end EditorCore
