import EditorCore.Editor.Host

/-!
Contract: the public calls of an editor as data.

Owns:
- `Call`, one value for each call that can change an editor, and `Answer`, what
  it reports;
- `step` and `run`, which carry out one call and a list of them.

Does not own: what a call does.  `step` only sends each to its operation.
-/

namespace EditorCore

/-- A call that can change an editor. -/
inductive Call (κ : Type) where
  | loadDocument (text : String)
  /-- Load what a document source answered. -/
  | loadAnswer (answer : Except EditError String)
  | insertChar (char : Char)
  | insertLine
  | deleteChar
  | indent
  | outdent
  | paste (text : String)
  | pasteFrom (clipboard : Clipboard)
  | onPaste (text : String)
  | handle (message : Message κ)
  | onCharacter (char : Char)
  | onKey (key : Key)
  | onMouseDown (x y : κ)
  | move (motion : Motion)
  | moveToPosition (position : Position)
  | moveToPoint (x y : κ)
  | setOrigin (x y : κ)
  | setKeywords (words : List String)
  | tick
  | pollEvents

/-- What a call reports. -/
inductive Answer where
  | done
  /-- Whether the call had an effect. -/
  | applied (effect : Bool)
  /-- Whether a paste was taken, or why it was refused. -/
  | pasted (result : Except EditError Bool)
  /-- Whether a document was loaded, or why it was refused. -/
  | loaded (result : Except EditError Unit)
  | events (queued : List CursorEvent)

namespace Editor

variable {κ : Type} [Coordinate κ]

def step (editor : Editor κ) : Call κ → Checked (Editor κ × Answer)
  | .loadDocument text => do
      let (next, result) ← editor.loadDocument text
      return (next, .loaded result)
  | .loadAnswer answer => do
      let (next, result) ← editor.loadAnswer answer
      return (next, .loaded result)
  | .insertChar char => do
      let (next, effect) ← editor.insertChar char
      return (next, .applied effect)
  | .insertLine => do
      let (next, effect) ← editor.insertLine
      return (next, .applied effect)
  | .deleteChar => do
      let (next, effect) ← editor.deleteChar
      return (next, .applied effect)
  | .indent => do
      let (next, effect) ← editor.indent
      return (next, .applied effect)
  | .outdent => do
      let (next, effect) ← editor.outdent
      return (next, .applied effect)
  | .paste text => do
      let (next, result) ← editor.paste text
      return (next, .pasted result)
  | .pasteFrom clipboard => do
      let (next, result) ← editor.pasteFrom clipboard
      return (next, .pasted result)
  | .onPaste text => do
      let (next, result) ← editor.onPaste text
      return (next, .pasted result)
  | .handle message => do
      let (next, effect) ← editor.handle message
      return (next, .applied effect)
  | .onCharacter char => do
      let (next, effect) ← editor.onCharacter char
      return (next, .applied effect)
  | .onKey key => do
      let (next, effect) ← editor.onKey key
      return (next, .applied effect)
  | .onMouseDown x y => do
      let (next, effect) ← editor.onMouseDown x y
      return (next, .applied effect)
  | .move motion => do return (← editor.move motion, .done)
  | .moveToPosition position => do return (← editor.moveToPosition position, .done)
  | .moveToPoint x y => do return (← editor.moveToPoint x y, .done)
  | .setOrigin x y => .ok (editor.setOrigin x y, .done)
  | .setKeywords words => do return (← editor.setKeywords words, .done)
  | .tick =>
      let (next, toggled) := editor.tick
      .ok (next, .applied toggled)
  | .pollEvents =>
      let (next, queued) := editor.pollEvents
      .ok (next, .events queued)

/-- Carry out calls in order, collecting their answers. -/
def run (editor : Editor κ) : List (Call κ) → Checked (Editor κ × List Answer)
  | [] => .ok (editor, [])
  | call :: later => do
      let (next, answer) ← editor.step call
      let (last, answers) ← next.run later
      return (last, answer :: answers)

end Editor

end EditorCore
