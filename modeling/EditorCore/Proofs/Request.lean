import EditorCore.Proofs.PlainText

/-!
Contract: what the calls of an editor come down to.

Owns:
- `Request`, the few things that calls ask for, and `Editor.perform`;
- the request of each call, and the memory of a typed CR that the call leaves;
- that a call changes the editor as its request does.

Does not own: answers, or what becomes of a request.
-/

namespace EditorCore

/-- What a call asks for. -/
inductive Request (κ : Type) where
  | nothing
  | edit (edit : Edit)
  | load (text : String)
  | go (motion : Motion)
  | place (position : Position)
  | point (x y : κ)
  | arrange (x y : κ)
  | colour (words : List String)
  | frame
  | fetch

variable {κ : Type}

def Message.request : Message κ → Request κ
  | .move motion => .go motion
  | .insertChar char => .edit (.character char)
  | .insertNewline => .edit .newline
  | .deleteBackward => .edit .backspace
  | .indent => .edit .tab
  | .outdent => .edit .outdent
  | .paste text => .edit (.paste text)
  | .mouseDown x y => .point x y
  | .tick => .frame

/-- What a typed character asks for.  An LF right after a CR asks for nothing. -/
def Request.ofTyped (afterCr : Bool) (char : Char) : Request κ :=
  if char = '\n' ∧ afterCr then .nothing
  else if isBreak char then .edit .newline
  else if char = '\t' then .edit .tab
  else if isControl char then .nothing
  else .edit (.character char)

namespace Call

def request (afterCr : Bool) : Call κ → Request κ
  | .loadDocument text | .loadAnswer (.ok text) => .load text
  | .loadAnswer (.error _) => .nothing
  | .insertChar char => .edit (.character char)
  | .insertLine => .edit .newline
  | .deleteChar => .edit .backspace
  | .indent => .edit .tab
  | .outdent => .edit .outdent
  | .paste text | .onPaste text => .edit (.paste text)
  | .pasteFrom clipboard =>
      match clipboard.read with
      | .ok text => .edit (.paste text)
      | .error _ => .nothing
  | .handle message => message.request
  | .onCharacter char => .ofTyped afterCr char
  | .onKey key => (Message.ofKey key).request
  | .move motion => .go motion
  | .moveToPosition position => .place position
  | .onMouseDown x y | .moveToPoint x y => .point x y
  | .setOrigin x y => .arrange x y
  | .setKeywords words => .colour words
  | .tick => .frame
  | .pollEvents => .fetch

/-- Whether the last typed character is known to be a CR after a call.  Only the
input events of hosts have a say in it. -/
def typedCr (before : Bool) : Call κ → Bool
  | .onCharacter char => char = '\r'
  | .onPaste _ | .onKey _ | .onMouseDown _ _ => false
  | _ => before

end Call

namespace Editor

theorem map_fst_report {α β : Type} (report : α → β) (outcome : Checked (Editor κ × α)) :
    (do
      let (next, result) ← outcome
      return (next, report result) : Checked (Editor κ × β)).map Prod.fst =
      outcome.map Prod.fst := by
  cases outcome <;> rfl

theorem map_fst_result {β : Type} (result : β) (outcome : Checked (Editor κ)) :
    (do return (← outcome, result) : Checked (Editor κ × β)).map Prod.fst = outcome := by
  cases outcome <;> rfl

variable [Coordinate κ]

def perform (editor : Editor κ) : Request κ → Checked (Editor κ)
  | .nothing => .ok editor
  | .edit edit => (editor.step edit.call).map Prod.fst
  | .load text => (editor.loadDocument text).map Prod.fst
  | .go motion => editor.move motion
  | .place position => editor.moveToPosition position
  | .point x y => editor.moveToPoint x y
  | .arrange x y => .ok (editor.setOrigin x y)
  | .colour words => editor.setKeywords words
  | .frame => .ok editor.tick.1
  | .fetch => .ok editor.pollEvents.1

/-- An editor that has taken note of what a call types. -/
def heard (editor : Editor κ) (call : Call κ) : Editor κ :=
  { editor with afterTypedCr := call.typedCr editor.afterTypedCr }

section Edits

variable (editor : Editor κ)

theorem perform_character (char : Char) :
    editor.perform (.edit (.character char)) = (editor.insertChar char).map Prod.fst :=
  map_fst_report Answer.applied _

theorem perform_newline :
    editor.perform (.edit .newline) = editor.insertLine.map Prod.fst :=
  map_fst_report Answer.applied _

theorem perform_tab : editor.perform (.edit .tab) = editor.indent.map Prod.fst :=
  map_fst_report Answer.applied _

theorem perform_backspace :
    editor.perform (.edit .backspace) = editor.deleteChar.map Prod.fst :=
  map_fst_report Answer.applied _

theorem perform_outdent : editor.perform (.edit .outdent) = editor.outdent.map Prod.fst :=
  map_fst_report Answer.applied _

theorem perform_paste (text : String) :
    editor.perform (.edit (.paste text)) = (editor.paste text).map Prod.fst :=
  map_fst_report Answer.pasted _

end Edits

/-- A message is the request that it stands for. -/
theorem handle_eq_perform (editor : Editor κ) (message : Message κ) :
    (editor.handle message).map Prod.fst = editor.perform message.request := by
  cases message with
  | move motion => exact map_fst_result true (editor.move motion)
  | insertChar char => exact (editor.perform_character char).symm
  | insertNewline => exact editor.perform_newline.symm
  | deleteBackward => exact editor.perform_backspace.symm
  | indent => exact editor.perform_tab.symm
  | outdent => exact editor.perform_outdent.symm
  | paste text =>
      refine Eq.trans ?_ (editor.perform_paste text).symm
      rw [handle]
      rcases editor.paste text with fault | ⟨next, refusal | taken⟩ <;> rfl
  | mouseDown x y => exact map_fst_result true (editor.moveToPoint x y)
  | tick => rfl

/-- A typed character is a request, once it has been heard. -/
theorem onCharacter_eq_perform (editor : Editor κ) (char : Char) :
    (editor.onCharacter char).map Prod.fst =
      ({ editor with afterTypedCr := char = '\r' } : Editor κ).perform
        (.ofTyped editor.afterTypedCr char) := by
  unfold onCharacter Request.ofTyped
  split
  · rfl
  · split
    · exact handle_eq_perform _ .insertNewline
    · split
      · exact handle_eq_perform _ .indent
      · split
        · rfl
        · exact handle_eq_perform _ (.insertChar char)

/-- A call changes an editor as its request does, once the editor has taken note
of what the call types. -/
theorem step_eq_perform (editor : Editor κ) (call : Call κ) :
    (editor.step call).map Prod.fst =
      (editor.heard call).perform (call.request editor.afterTypedCr) := by
  cases call with
  | loadDocument text => exact map_fst_report Answer.loaded (editor.loadDocument text)
  | loadAnswer answer =>
      refine (map_fst_report Answer.loaded (editor.loadAnswer answer)).trans ?_
      cases answer <;> rfl
  | pasteFrom clipboard =>
      refine (map_fst_report Answer.pasted (editor.pasteFrom clipboard)).trans ?_
      rw [pasteFrom, Call.request]
      cases clipboard.read with
      | error cause => rfl
      | ok text => exact (editor.perform_paste text).symm
  | onPaste text =>
      refine (map_fst_report Answer.pasted (editor.onPaste text)).trans ?_
      exact (editor.forgetTypedCr.perform_paste text).symm
  | handle message =>
      refine (map_fst_report Answer.applied (editor.handle message)).trans ?_
      exact editor.handle_eq_perform message
  | onCharacter char =>
      refine (map_fst_report Answer.applied (editor.onCharacter char)).trans ?_
      exact editor.onCharacter_eq_perform char
  | onKey key =>
      refine (map_fst_report Answer.applied (editor.onKey key)).trans ?_
      exact editor.forgetTypedCr.handle_eq_perform (.ofKey key)
  | onMouseDown x y =>
      refine (map_fst_report Answer.applied (editor.onMouseDown x y)).trans ?_
      exact editor.forgetTypedCr.handle_eq_perform (.mouseDown x y)
  | move motion => exact map_fst_result Answer.done (editor.move motion)
  | moveToPosition position => exact map_fst_result Answer.done (editor.moveToPosition position)
  | moveToPoint x y => exact map_fst_result Answer.done (editor.moveToPoint x y)
  | setKeywords words => exact map_fst_result Answer.done (editor.setKeywords words)
  | insertChar | insertLine | deleteChar | indent | outdent | paste | setOrigin | tick
  | pollEvents => rfl

/-- A call that goes through performs its request. -/
theorem step_eq_ok {editor next : Editor κ} {call : Call κ} {answer : Answer}
    (steps : editor.step call = .ok (next, answer)) :
    (editor.heard call).perform (call.request editor.afterTypedCr) = .ok next := by
  rw [← step_eq_perform, steps]
  rfl

end Editor

end EditorCore
