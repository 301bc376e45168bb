import EditorCore.Error

/-!
Contract: the clipboards that text can be pasted from and copied to.

Owns: `Clipboard`, one that keeps text in memory or one that can only be read,
and what reading and writing do to each.

Does not own: the platform's clipboard.
-/

namespace EditorCore

/-- A place that text is pasted from and copied to. -/
inductive Clipboard where
  | memory (contents : Option String)
  /-- A clipboard that gives one answer to every read and takes no text. -/
  | readOnly (answer : Except ClipboardError String)

namespace Clipboard

def read : Clipboard → Except ClipboardError String
  | memory (some text) => .ok text
  | memory none => .error .empty
  | readOnly answer => answer

def write (text : String) : Clipboard → Except ClipboardError Clipboard
  | memory _ => .ok (memory (some text))
  | readOnly _ => .error .writeUnsupported

def contents? : Clipboard → Option String
  | memory contents => contents
  | readOnly _ => none

end Clipboard

end EditorCore
