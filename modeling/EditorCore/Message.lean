/-!
Contract: what a host can ask of the editor with one input.

Owns: the targets of caret movement, the keys the editor knows, the messages
that it handles, and what each key means.

Does not own: the key codes of a platform, which hosts tell apart.
-/

namespace EditorCore

/-- Where a movement request sends the caret. -/
inductive Motion where
  | left
  | right
  | up
  | down
  | lineStart
  | lineEnd
  | wordLeft
  | wordRight
  | documentStart
  | documentEnd
deriving DecidableEq, Repr

/-- Keys that act on press and on repeat. -/
inductive Key where
  | enter
  | backspace
  | shiftBackspace
  | tab
  | up
  | down
  | left
  | right
  | wordLeft
  | wordRight
  | home
  | endKey
deriving DecidableEq, Repr

/-- An input for the editor. -/
inductive Message (κ : Type) where
  | move (motion : Motion)
  | insertChar (char : Char)
  | insertNewline
  | deleteBackward
  | indent
  | outdent
  | paste (text : String)
  | mouseDown (x y : κ)
  | tick
deriving DecidableEq, Repr

namespace Message

variable {κ : Type}

/-- Whether a message may change the text. -/
def isEditing : Message κ → Bool
  | insertChar _ | insertNewline | deleteBackward | indent | outdent | paste _ => true
  | move _ | mouseDown _ _ | tick => false

/-- Whether a message comes with every frame. -/
def isNoisy : Message κ → Bool
  | tick => true
  | _ => false

/-- The message that a key stands for. -/
def ofKey : Key → Message κ
  | .enter => insertNewline
  | .backspace => deleteBackward
  | .shiftBackspace => outdent
  | .tab => indent
  | .up => move .up
  | .down => move .down
  | .left => move .left
  | .right => move .right
  | .wordLeft => move .wordLeft
  | .wordRight => move .wordRight
  | .home => move .lineStart
  | .endKey => move .lineEnd

end Message

end EditorCore
