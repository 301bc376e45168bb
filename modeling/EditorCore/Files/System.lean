import EditorCore.Files.SystemError

/-!
Contract: what the program asks of the system's files.

Owns:
- what a file holds, and what shows of it without reading;
- `FileView`, the system's answers about files at some time;
- `FileSystem`, files that can be changed as well.

Does not own: which files there are, and which of them may be read or written.
Nothing is promised about that: a file that was read may not be written, and one
that was written may read otherwise.
-/

namespace EditorCore

/-! ## Contents -/

/-- What a file holds: bytes, and a run of zero bytes after them that takes no
room. -/
structure FileContent where
  bytes : ByteArray
  hole : Nat

namespace FileContent

def ofText (text : String) : FileContent := ⟨text.toUTF8, 0⟩

def size (content : FileContent) : Nat := content.bytes.size + content.hole

def hasZero (content : FileContent) : Bool :=
  content.hole ≠ 0 || content.bytes.data.contains 0

/-- The text that a file holds, if its bytes are UTF-8. -/
def text? (content : FileContent) : Option String :=
  (String.fromUTF8? content.bytes).map (·.pushn '\x00' content.hole)

end FileContent

/-! ## Answers -/

/-- What shows of a file without reading it. -/
structure Metadata where
  isDirectory : Bool
  /-- The size in bytes. -/
  size : Nat
deriving DecidableEq, Repr

/-- The system's answers about files, by their paths. -/
structure FileView where
  metadata : String → Except SystemError Metadata
  read : String → Except SystemError FileContent

/-- Files under the system's care.  What could not be done may still have left
something behind. -/
class FileSystem (σ : Type) where
  view : σ → FileView
  list : σ → String → Except SystemError (List String)
  /-- Write a file, which is made if there is none. -/
  write : σ → String → FileContent → σ × Except SystemError Unit
  /-- Make a directory with all that hold it, as far as they are missing. -/
  makeDirectories : σ → String → σ × Except SystemError Unit

end EditorCore
