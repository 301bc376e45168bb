import EditorCore.Proofs.Manuscript
import EditorCore.Proofs.Request

/-!
Contract: every call takes one of four courses.

Owns:
- `Course`, told from what a call asks for, from the line that the caret is on and
  from what the call answers;
- `Manuscript.Turns`, what each course leaves of a manuscript;
- that every call of an editor takes its course.

Does not own: which drafts edits and motions end with.
-/

namespace EditorCore

/-- What becomes of a call. -/
inductive Course where
  /-- Nothing is done to the text or the caret. -/
  | rests
  /-- An edit, a load or a motion goes through. -/
  | ends
  /-- A frame passes. -/
  | ticks
  /-- The caret events are handed over. -/
  | fetches
deriving DecidableEq, Repr

instance : DecidablePred Answer.Refuses
  | .applied effect => inferInstanceAs (Decidable (effect = false))
  | .pasted (.ok taken) => inferInstanceAs (Decidable (taken = false))
  | .pasted (.error _) | .loaded (.error _) => .isTrue trivial
  | .loaded (.ok ()) | .done | .events _ => .isFalse id

/-- What becomes of an edit or a load that is answered. -/
def Answer.course (answer : Answer) : Course :=
  if answer.Refuses then .rests else .ends

variable {κ : Type}

/-- What becomes of a request of an editor whose caret is on a row of some number
of rows.  Pasting nothing does nothing.  Neither does a line up from the first row or
a line down from the last, unlike all other motions at the ends of the document. -/
def Request.course (row count : Nat) (answer : Answer) : Request κ → Course
  | .nothing | .arrange _ _ | .colour _ => .rests
  | .edit (.paste text) => if text.toList = [] then .rests else answer.course
  | .edit _ | .load _ => answer.course
  | .go .up => if 0 < row then .ends else .rests
  | .go .down => if row + 1 < count then .ends else .rests
  | .go _ | .place _ | .point _ _ => .ends
  | .frame => .ticks
  | .fetch => .fetches

/-- The caret is in a remembered column, or at the end of a line too short for it. -/
def Draft.Sticks (draft : Draft) (desired : Option Nat) : Prop :=
  ∀ column, desired = some column → draft.column = min column draft.current.length

theorem Draft.sticks_none (draft : Draft) : draft.Sticks none :=
  fun _ remembered => absurd remembered nofun

/-- The remembered column on another row sticks. -/
theorem Draft.sticks_vertical {draft : Draft} {row : Nat} {line : List Char}
    (found : draft.lines[row]? = some line) (desired : Option Nat) :
    (draft.goTo (draft.vertical desired row)).Sticks (some (desired.getD draft.column)) := by
  intro column remembered
  obtain rfl := Option.some.inj remembered
  rw [goTo, vertical, column_seek found, current_seek found, lengthOf_eq found]
  exact Nat.min_eq_left (Nat.min_le_right _ _)

namespace Manuscript

variable {α : Type} {manuscript next : Manuscript} {aim : Draft → κ → κ → Position}
  {course : Course} {answer : Answer}

/-- What a course leaves of a manuscript. -/
inductive Turns (manuscript : Manuscript) : Course → Manuscript → Prop
  | rests (afterTypedCr : Bool) : Turns manuscript .rests (manuscript.noting afterTypedCr)
  | ends (afterTypedCr : Bool) (ending : LineEnding) {desired : Option Nat} {draft : Draft}
      (sticks : draft.Sticks desired) :
      Turns manuscript .ends (settled { manuscript with afterTypedCr, ending } desired draft)
  | ticks (afterTypedCr : Bool) :
      Turns manuscript .ticks (manuscript.noting afterTypedCr).tick.1
  | fetches (afterTypedCr : Bool) :
      Turns manuscript .fetches (manuscript.noting afterTypedCr).fetch.1

/-- A request of a manuscript takes its course. -/
def Heeds (manuscript : Manuscript) (request : Request κ) (answer : Answer)
    (next : Manuscript) : Prop :=
  manuscript.Turns (request.course manuscript.draft.row manuscript.draft.lines.length answer) next

theorem turns_settled {desired : Option Nat} {draft : Draft} (sticks : draft.Sticks desired) :
    manuscript.Turns .ends (manuscript.settled desired draft) :=
  .ends manuscript.afterTypedCr manuscript.ending sticks

theorem turns_self : manuscript.Turns .rests manuscript :=
  .rests manuscript.afterTypedCr

theorem turns_concluded {yes no result : α} {full : Nat → α} {verdict : Verdict Draft}
    {report : α → Answer} (accepts : ¬ (report yes).Refuses) (declines : (report no).Refuses)
    (refuses : ∀ required, (report (full required)).Refuses)
    (concludes : manuscript.concluded yes no full verdict = .ok (next, result)) :
    manuscript.Turns (report result).course next := by
  unfold Answer.course
  cases verdict with
  | accepted draft =>
      obtain ⟨rfl, rfl⟩ := Prod.mk.inj (Except.ok.inj concludes)
      rw [if_neg accepts]
      exact turns_settled draft.sticks_none
  | declined =>
      obtain ⟨rfl, rfl⟩ := Prod.mk.inj (Except.ok.inj concludes)
      rw [if_pos declines]
      exact turns_self
  | full required =>
      change ifWord required (manuscript, full required) = .ok (next, result) at concludes
      unfold ifWord at concludes
      split at concludes
      · obtain ⟨rfl, rfl⟩ := Prod.mk.inj (Except.ok.inj concludes)
        rw [if_pos (refuses required)]
        exact turns_self
      · exact absurd concludes nofun

theorem Turns.of_noting {afterTypedCr : Bool}
    (turns : (manuscript.noting afterTypedCr).Turns course next) :
    manuscript.Turns course next := by
  cases turns with
  | rests afterTypedCr => exact .rests afterTypedCr
  | ends afterTypedCr ending sticks => exact .ends afterTypedCr ending sticks
  | ticks afterTypedCr => exact .ticks afterTypedCr
  | fetches afterTypedCr => exact .fetches afterTypedCr

theorem Heeds.of_noting {request : Request κ} {afterTypedCr : Bool}
    (heeds : (manuscript.noting afterTypedCr).Heeds request answer next) :
    manuscript.Heeds request answer next :=
  Turns.of_noting heeds

theorem turns_edit {edit : Edit} {effect : Bool}
    (edits : manuscript.edit edit = .ok (next, effect)) :
    manuscript.Turns (Answer.applied effect).course next :=
  turns_concluded Bool.noConfusion rfl (fun _ => rfl) edits

theorem heeds_paste {text : String} {result : Except EditError Bool}
    (report : Except EditError Bool → Answer) (accepts : ¬ (report (.ok true)).Refuses)
    (declines : (report (.ok false)).Refuses)
    (refuses : ∀ refusal, (report (.error refusal)).Refuses)
    (pastes : manuscript.paste text = .ok (next, result)) :
    manuscript.Heeds (.edit (.paste text) : Request κ) (report result) next := by
  rw [Heeds, Request.course]
  unfold paste at pastes
  split at pastes
  · rename_i nothing
    obtain ⟨rfl, rfl⟩ := Prod.mk.inj (Except.ok.inj pastes)
    rw [if_pos nothing]
    exact turns_self
  · rename_i something
    rw [if_neg something]
    exact turns_concluded accepts declines (fun _ => refuses _) pastes

/-- A document that is loaded ends the course; a refused one changes nothing. -/
theorem turns_load (manuscript : Manuscript) (text : String) :
    manuscript.Turns (Answer.loaded (manuscript.load text).2).course (manuscript.load text).1 := by
  unfold load
  by_cases fits : joinedLength (segments text.toList) ≤ manuscript.capacity
  · rw [if_pos fits]
    exact .ends manuscript.afterTypedCr _ (Draft.sticks_none _)
  · rw [if_neg fits]
    exact turns_self

theorem heeds_move (manuscript : Manuscript) (motion : Motion) (answer : Answer) :
    manuscript.Heeds (.go motion : Request κ) answer (manuscript.move motion) := by
  -- Only going up and down remembers a column, and only this may aim nowhere.
  have other {position : Position}
      (aims : manuscript.draft.target (wordStepOver manuscript.rules.wordTerminals)
        manuscript.desiredColumn motion = some position)
      (forgets : motion.remembers manuscript.draft.column manuscript.desiredColumn = none) :
      manuscript.Turns .ends (manuscript.move motion) := by
    rw [move, aims, forgets]
    exact turns_settled (Draft.sticks_none _)
  have vertical {row : Nat} (inside : row < manuscript.draft.lines.length) :
      (manuscript.draft.goTo (manuscript.draft.vertical manuscript.desiredColumn row)).Sticks
        (some (manuscript.desiredColumn.getD manuscript.draft.column)) := by
    obtain ⟨line, found⟩ := manuscript.draft.exists_line row inside
    exact Draft.sticks_vertical found manuscript.desiredColumn
  cases motion with
  | up =>
      rw [Heeds, Request.course, move, Draft.target]
      by_cases more : 0 < manuscript.draft.row
      · have inside := manuscript.draft.row_lt_length_lines
        rw [if_pos more, if_pos more]
        exact turns_settled (vertical (by omega))
      · rw [if_neg more, if_neg more]
        exact turns_self
  | down =>
      rw [Heeds, Request.course, move, Draft.target]
      by_cases more : manuscript.draft.row + 1 < manuscript.draft.lines.length
      · rw [if_pos more, if_pos more]
        exact turns_settled (vertical more)
      · rw [if_neg more, if_neg more]
        exact turns_self
  | left | right | lineStart | lineEnd | wordLeft | wordRight | documentStart | documentEnd =>
      exact other rfl rfl

/-- A message heeds what the call that it stands for heeds. -/
theorem heeds_handle {message : Message κ} {effect : Bool}
    (handles : manuscript.handle aim message = .ok (next, effect)) :
    manuscript.Heeds message.request (.applied effect) next := by
  cases message with
  | move motion =>
      obtain ⟨rfl, rfl⟩ := Prod.mk.inj (Except.ok.inj handles)
      exact heeds_move manuscript motion _
  | insertChar char => exact turns_edit handles
  | insertNewline => exact turns_edit handles
  | deleteBackward => exact turns_edit handles
  | indent => exact turns_edit handles
  | outdent => exact turns_edit handles
  | paste text =>
      obtain ⟨⟨pasted, result⟩, pastes, reports⟩ := exists_of_bind handles
      have heeds : manuscript.Heeds (.edit (.paste text) : Request κ)
          (.applied (result.toOption.getD false)) pasted :=
        heeds_paste (fun result => .applied (result.toOption.getD false)) Bool.noConfusion rfl
          (fun _ => rfl) pastes
      cases result with
      | ok applied =>
          obtain ⟨rfl, rfl⟩ := Prod.mk.inj (Except.ok.inj reports)
          exact heeds
      | error refusal =>
          obtain ⟨rfl, rfl⟩ := Prod.mk.inj (Except.ok.inj reports)
          exact heeds
  | mouseDown x y =>
      obtain ⟨rfl, rfl⟩ := Prod.mk.inj (Except.ok.inj handles)
      exact turns_settled (Draft.sticks_none _)
  | tick =>
      obtain ⟨rfl, rfl⟩ := Prod.mk.inj (Except.ok.inj handles)
      exact .ticks manuscript.afterTypedCr

/-- A typed character heeds the edit that it is heard as. -/
theorem heeds_onCharacter {char : Char} {effect : Bool}
    (types : manuscript.onCharacter char = .ok (next, effect)) :
    manuscript.Heeds (.ofTyped manuscript.afterTypedCr char : Request κ) (.applied effect)
      next := by
  unfold onCharacter at types
  unfold Request.ofTyped
  split at types
  · rename_i partner
    obtain ⟨rfl, rfl⟩ := Prod.mk.inj (Except.ok.inj types)
    rw [if_pos partner]
    exact .rests _
  · rename_i single
    rw [if_neg single]
    split at types
    · rename_i ends
      rw [if_pos ends]
      exact (turns_edit types).of_noting
    · rename_i continues
      rw [if_neg continues]
      split at types
      · rename_i tab
        rw [if_pos tab]
        exact (turns_edit types).of_noting
      · rename_i other
        rw [if_neg other]
        split at types
        · rename_i control
          obtain ⟨rfl, rfl⟩ := Prod.mk.inj (Except.ok.inj types)
          rw [if_pos control]
          exact .rests _
        · rename_i printed
          rw [if_neg printed]
          exact (turns_edit types).of_noting

/-- A call that reports what an operation results in goes through with it. -/
theorem exists_of_reported {outcome : Checked (Manuscript × α)} {report : α → Answer}
    (reports : (do
      let (next, result) ← outcome
      return (next, report result) : Checked (Manuscript × Answer)) = .ok (next, answer)) :
    ∃ result, outcome = .ok (next, result) ∧ answer = report result := by
  obtain ⟨pair, goes, returns⟩ := exists_of_bind reports
  obtain ⟨rfl, rfl⟩ := Prod.mk.inj (Except.ok.inj returns)
  exact ⟨pair.2, goes, rfl⟩

/-- The step lemma: a call heeds what it stands for. -/
theorem heeds_step {call : Call κ} (steps : manuscript.step aim call = .ok (next, answer)) :
    manuscript.Heeds (call.request manuscript.afterTypedCr) answer next := by
  cases call with
  | loadDocument text =>
      obtain ⟨rfl, rfl⟩ := Prod.mk.inj (Except.ok.inj steps)
      exact manuscript.turns_load text
  | loadAnswer source =>
      cases source with
      | error refusal =>
          obtain ⟨rfl, rfl⟩ := Prod.mk.inj (Except.ok.inj steps)
          exact turns_self
      | ok text =>
          obtain ⟨rfl, rfl⟩ := Prod.mk.inj (Except.ok.inj steps)
          exact manuscript.turns_load text
  | insertChar | insertLine | deleteChar | indent | outdent =>
      obtain ⟨effect, edits, rfl⟩ := exists_of_reported steps
      exact turns_edit edits
  | paste text =>
      obtain ⟨result, pastes, rfl⟩ := exists_of_reported steps
      exact heeds_paste .pasted Bool.noConfusion rfl (fun _ => trivial) pastes
  | pasteFrom clipboard =>
      rw [step] at steps
      rw [Call.request]
      cases held : clipboard.read with
      | error cause =>
          rw [held] at steps
          obtain ⟨rfl, rfl⟩ := Prod.mk.inj (Except.ok.inj steps)
          exact turns_self
      | ok text =>
          rw [held] at steps
          obtain ⟨result, pastes, rfl⟩ := exists_of_reported steps
          exact heeds_paste .pasted Bool.noConfusion rfl (fun _ => trivial) pastes
  | onPaste text =>
      obtain ⟨result, pastes, rfl⟩ := exists_of_reported steps
      exact (heeds_paste .pasted Bool.noConfusion rfl (fun _ => trivial) pastes).of_noting
  | handle message =>
      obtain ⟨effect, handles, rfl⟩ := exists_of_reported steps
      exact heeds_handle handles
  | onCharacter char =>
      obtain ⟨effect, types, rfl⟩ := exists_of_reported steps
      exact heeds_onCharacter types
  | onKey key =>
      obtain ⟨effect, handles, rfl⟩ := exists_of_reported steps
      exact (heeds_handle handles).of_noting
  | onMouseDown x y =>
      obtain ⟨rfl, rfl⟩ := Prod.mk.inj (Except.ok.inj steps)
      exact (turns_settled (Draft.sticks_none _)).of_noting
  | move motion =>
      obtain ⟨rfl, rfl⟩ := Prod.mk.inj (Except.ok.inj steps)
      exact heeds_move manuscript motion _
  | moveToPosition | moveToPoint =>
      obtain ⟨rfl, rfl⟩ := Prod.mk.inj (Except.ok.inj steps)
      exact turns_settled (Draft.sticks_none _)
  | setOrigin | setKeywords =>
      obtain ⟨rfl, rfl⟩ := Prod.mk.inj (Except.ok.inj steps)
      exact turns_self
  | tick =>
      obtain ⟨rfl, rfl⟩ := Prod.mk.inj (Except.ok.inj steps)
      exact .ticks manuscript.afterTypedCr
  | pollEvents =>
      obtain ⟨rfl, rfl⟩ := Prod.mk.inj (Except.ok.inj steps)
      exact .fetches manuscript.afterTypedCr

end Manuscript

namespace Editor

variable [Coordinate κ] {editor next : Editor κ} {draft : Draft} {call : Call κ} {answer : Answer}

/-- What becomes of a call of an editor that gets some answer. -/
def course (editor : Editor κ) (call : Call κ) (answer : Answer) : Course :=
  (call.request editor.afterTypedCr).course editor.cursor.line editor.lines.size answer

/-- Every call takes its course. -/
theorem Shows.turns (shows : editor.Shows draft) (steps : editor.step call = .ok (next, answer)) :
    ∃ target, (editor.manuscript draft).Turns (editor.course call answer) target ∧
      next.Presents target := by
  obtain ⟨target, expected, presents⟩ := (shows.tracks call).of_ok steps
  refine ⟨target, ?_, presents⟩
  rw [course, shows.row, shows.size]
  exact Manuscript.heeds_step expected

end Editor

end EditorCore
