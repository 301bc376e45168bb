import EditorCore.Editor.Call
import EditorCore.Proofs.Editing
import EditorCore.Proofs.Navigation

/-!
Contract: what holds of an editor after any calls.

Owns:
- `Answer.Refuses`, the answers that turn a call down, and what a call that
  answers so may have changed;
- `Editor.roomFor`, the length that a call can ask a document to have;
- the step: every call leaves an editor that shows some draft, and an editor as
  it was when the call is turned down; only a length that no word holds stops it;
- `Reachable`, the editors that calls lead to, and the run.

Does not own: what an editor that shows a draft satisfies.
-/

namespace EditorCore

deriving instance DecidableEq for Answer

/-- The answer turns the call down. -/
def Answer.Refuses : Answer → Prop
  | .applied effect => effect = false
  | .pasted (.ok taken) => taken = false
  | .pasted (.error _) => True
  | .loaded (.error _) => True
  | .loaded (.ok ()) | .done | .events _ => False

namespace Call

variable {κ : Type}

/-- The call lets a frame pass. -/
def IsTick : Call κ → Prop
  | .tick | .handle .tick => True
  | _ => False

/-- What a call that is turned down leaves alone: everything, apart from the
memory of a typed CR, which is how hosts' input events begin. -/
def Keeps (editor next : Editor κ) : Call κ → Prop
  | .onPaste _ | .onCharacter _ | .onKey _ | .onMouseDown _ _ =>
      next = { editor with afterTypedCr := next.afterTypedCr }
  | _ => next = editor

end Call

namespace Editor

variable {κ : Type} [Coordinate κ]

/-! ## What calls ask for -/

/-- The most characters that the document would have to have for what is typed: a
separator more, and an indent unit for each character and one more. -/
def roomToType (editor : Editor κ) : Nat :=
  editor.buffer.length + separatorLength +
    (editor.buffer.length + 1) * editor.options.indentUnit.length

/-- The characters that the document would have to have for a paste. -/
def roomToPaste (editor : Editor κ) (text : String) : Nat :=
  editor.buffer.length + joinedLength (segments text.toList)

/-- The most characters that the document would have to have for a call. -/
def roomFor (editor : Editor κ) : Call κ → Nat
  | .paste text | .onPaste text | .handle (.paste text) => editor.roomToPaste text
  | .pasteFrom clipboard =>
      match clipboard.read with
      | .ok text => editor.roomToPaste text
      | .error _ => editor.buffer.length
  | .insertChar _ | .insertLine | .indent | .handle _ | .onCharacter _ | .onKey _ =>
      editor.roomToType
  | _ => editor.buffer.length

/-! ## Sound outcomes -/

/-- An outcome leaves an editor that shows some draft, and one of the kept ones
if the call is turned down.  All that can stop it is a length that no word holds
and that is not past the most that the call asks for. -/
def Sound {α : Type} (most : Nat) (kept : Editor κ → Prop) (report : α → Answer) :
    Checked (Editor κ × α) → Prop
  | .ok (next, result) => (∃ draft, next.Shows draft) ∧ ((report result).Refuses → kept next)
  | .error fault => fault = .countTooLarge ∧ Word.largest < most

section Sound

variable {α : Type} {most : Nat} {kept : Editor κ → Prop} {report : α → Answer}
  {editor : Editor κ} {draft : Draft} {outcome : Checked (Editor κ × α)}

theorem Sound.mono {other : Editor κ → Prop} (sound : Sound most kept report outcome)
    (wider : ∀ next, kept next → other next) : Sound most other report outcome := by
  cases outcome with
  | error fault => exact sound
  | ok pair => exact ⟨sound.1, fun refused => wider pair.1 (sound.2 refused)⟩

/-- Reporting the result of an operation as the answer of a call. -/
theorem Sound.reported (sound : Sound most kept report outcome) :
    Sound most kept id (do
      let (next, result) ← outcome
      return (next, report result)) := by
  cases outcome with
  | error fault => exact sound
  | ok pair => exact sound

/-- A call that ends as a verdict says is sound if the verdict's length is in sight. -/
theorem Ends.sound {yes no : α} {full : Nat → α} {verdict : Verdict Draft}
    (ends : editor.Ends yes no full verdict outcome) (shows : editor.Shows draft)
    (room : verdict.AtMost most) (accepts : ¬ (report yes).Refuses) :
    Sound most (· = editor) report outcome := by
  cases verdict with
  | accepted target =>
      obtain ⟨next, rfl, settled⟩ := ends
      exact ⟨⟨target, settled.toShows⟩, fun refused => absurd refused accepts⟩
  | declined =>
      subst ends
      exact ⟨⟨draft, shows⟩, fun _ => rfl⟩
  | full required =>
      subst ends
      unfold ifWord
      split
      · exact ⟨⟨draft, shows⟩, fun _ => rfl⟩
      · rename_i tooLong
        exact ⟨rfl, Nat.lt_of_lt_of_le (Nat.lt_of_not_le tooLong) room⟩

theorem Applies.sound {verdict : Verdict Draft} {outcome : Checked (Editor κ × Bool)}
    (applies : editor.Applies verdict outcome) (shows : editor.Shows draft)
    (room : verdict.AtMost most) : Sound most (· = editor) .applied outcome :=
  Ends.sound applies shows room Bool.noConfusion

/-- A motion is never turned down. -/
theorem Arrives.sound {desired : Option Nat} {position : Position} {result : α}
    {outcome : Checked (Editor κ)} (arrives : editor.Arrives draft desired position outcome)
    (accepts : ¬ (report result).Refuses) :
    Sound most (· = editor) report (do return (← outcome, result)) := by
  obtain ⟨last, rfl, settled⟩ := arrives
  exact ⟨⟨_, settled.toShows⟩, fun refused => absurd refused accepts⟩

end Sound

/-! ## Single operations -/

section Operations

variable {editor : Editor κ} {draft : Draft} {most : Nat}

/-- Enter asks for a separator and at most one unit for each character. -/
theorem Shows.insertLine_sound (shows : editor.Shows draft) :
    Sound editor.roomToType (· = editor) .applied editor.insertLine := by
  have room := Draft.atMost_enter editor.options editor.buffer.capacity draft
  rw [← shows.length] at room
  exact shows.insertLine.sound shows room

theorem Shows.insertChar_sound (shows : editor.Shows draft) (char : Char) :
    Sound editor.roomToType (· = editor) .applied (editor.insertChar char) := by
  unfold Editor.insertChar
  by_cases ends : isBreak char = true
  · rw [if_pos ends]
    exact shows.insertLine_sound
  · rw [if_neg ends]
    have clean : Unbroken [char] := unbroken_singleton.mpr (Bool.eq_false_iff.mpr ends)
    have room : draft.text.length + [char].length ≤ editor.roomToType := by
      rw [← shows.length, roomToType, separatorLength, List.length_singleton]
      omega
    exact (shows.typeRun clean).sound shows (Draft.atMost_type room)

theorem Shows.indent_sound (shows : editor.Shows draft) :
    Sound editor.roomToType (· = editor) .applied editor.indent := by
  have room : draft.text.length + editor.options.indentUnit.chars.length ≤
      editor.roomToType := by
    rw [← shows.length, roomToType, IndentUnit.length_chars, Nat.succ_mul]
    omega
  exact shows.indent.sound shows (Draft.atMost_type room)

theorem Shows.outdent_sound (shows : editor.Shows draft) :
    Sound most (· = editor) .applied editor.outdent :=
  shows.outdent.sound shows (Draft.atMost_stepBack editor.options most draft)

theorem Shows.deleteChar_sound (shows : editor.Shows draft) :
    Sound most (· = editor) .applied editor.deleteChar := by
  rw [shows.deleteChar_eq]
  exact shows.outdent_sound

/-- A paste asks for its segments and the separators between them. -/
theorem Shows.paste_sound (shows : editor.Shows draft) (text : String) :
    Sound (editor.roomToPaste text) (· = editor) .pasted (editor.paste text) := by
  by_cases empty : text.toList = []
  · rw [Editor.paste, if_pos empty]
    exact ⟨⟨draft, shows⟩, fun _ => rfl⟩
  · have room := Draft.atMost_paste editor.options editor.buffer.capacity draft
      (segments text.toList)
    rw [← shows.length] at room
    exact (shows.paste empty).sound shows room Bool.noConfusion

theorem Shows.pasteFrom_sound (shows : editor.Shows draft) (clipboard : Clipboard) :
    Sound (editor.roomFor (.pasteFrom clipboard)) (· = editor) .pasted
      (editor.pasteFrom clipboard) := by
  cases answer : clipboard.read with
  | error cause =>
      rw [Editor.pasteFrom, answer]
      exact ⟨⟨draft, shows⟩, fun _ => rfl⟩
  | ok text =>
      have room : editor.roomFor (.pasteFrom clipboard) = editor.roomToPaste text := by
        simp only [roomFor, answer]
      rw [Editor.pasteFrom, answer, room]
      exact shows.paste_sound text

/-- Loading never asks for more than the capacity, which is a word. -/
theorem Shows.loadDocument_sound (shows : editor.Shows draft) (text : String) :
    Sound most (· = editor) .loaded (editor.loadDocument text) := by
  by_cases fits : joinedLength (segments text.toList) ≤ editor.buffer.capacity
  · obtain ⟨next, loads, settled⟩ := shows.loadDocument fits
    rw [loads]
    exact ⟨⟨_, settled.toShows⟩, False.elim⟩
  · rw [loadDocument_of_full (Nat.lt_of_not_le fits)]
    exact ⟨⟨draft, shows⟩, fun _ => rfl⟩

theorem Shows.loadAnswer_sound (shows : editor.Shows draft)
    (answer : Except EditError String) :
    Sound most (· = editor) .loaded (editor.loadAnswer answer) := by
  cases answer with
  | error refusal => exact ⟨⟨draft, shows⟩, fun _ => rfl⟩
  | ok text => exact shows.loadDocument_sound text

/-- Motions always go through. -/
theorem Shows.move_sound {α : Type} {report : α → Answer} {result : α}
    (shows : editor.Shows draft) (motion : Motion) (accepts : ¬ (report result).Refuses) :
    Sound most (· = editor) report (do return (← editor.move motion, result)) := by
  have moves := shows.move motion
  split at moves
  · exact moves.sound accepts
  · rw [moves]
    exact ⟨⟨draft, shows⟩, fun _ => rfl⟩

/-! ## Input events -/

/-- A paste that is turned down for its length answers the message alike. -/
theorem Shows.handlePaste_sound (shows : editor.Shows draft) (text : String) :
    Sound (editor.roomToPaste text) (· = editor) .applied (editor.handle (.paste text)) := by
  have sound := shows.paste_sound text
  cases pastes : editor.paste text with
  | error fault =>
      rw [pastes] at sound
      rw [Editor.handle, pastes]
      exact sound
  | ok pair =>
      rw [pastes] at sound
      rw [Editor.handle, pastes]
      obtain ⟨next, result⟩ := pair
      cases result with
      | error refusal => exact ⟨sound.1, fun _ => sound.2 trivial⟩
      | ok taken => exact sound

/-- A message is sound because the call that it stands for is. -/
theorem Shows.handle_sound (shows : editor.Shows draft) {message : Message κ}
    (other : message ≠ .tick) :
    Sound (editor.roomFor (.handle message)) (· = editor) .applied (editor.handle message) := by
  cases message with
  | move motion => exact shows.move_sound motion Bool.noConfusion
  | insertChar char => exact shows.insertChar_sound char
  | insertNewline => exact shows.insertLine_sound
  | deleteBackward => exact shows.deleteChar_sound
  | indent => exact shows.indent_sound
  | outdent => exact shows.outdent_sound
  | paste text => exact shows.handlePaste_sound text
  | mouseDown x y => exact (shows.moveToPoint x y).sound Bool.noConfusion
  | tick => exact absurd rfl other

/-- The memory of a typed CR, which input events change first, does not show. -/
theorem Shows.withTypedCr (shows : editor.Shows draft) (afterTypedCr : Bool) :
    ({ editor with afterTypedCr } : Editor κ).Shows draft :=
  shows.of_same rfl rfl rfl rfl

/-- What an input event does after it has changed the memory of a typed CR. -/
theorem Sound.ofTypedCr {α : Type} {report : α → Answer} {outcome : Checked (Editor κ × α)}
    (afterTypedCr : Bool) (sound : Sound most (· = { editor with afterTypedCr }) report outcome) :
    Sound most (fun next => next = { editor with afterTypedCr := next.afterTypedCr }) report
      outcome := by
  refine sound.mono ?_
  rintro next rfl
  rfl

/-- A typed character is heard first; a refusal then leaves all but what was heard. -/
theorem Shows.onCharacter_sound (shows : editor.Shows draft) (char : Char) :
    Sound editor.roomToType (fun next => next = { editor with afterTypedCr := next.afterTypedCr })
      .applied (editor.onCharacter char) := by
  have typed := shows.withTypedCr (char = '\r')
  apply Sound.ofTypedCr (char = '\r')
  unfold Editor.onCharacter
  split
  · exact ⟨⟨draft, typed⟩, fun _ => rfl⟩
  · split
    · exact typed.handle_sound nofun
    · split
      · exact typed.handle_sound nofun
      · split
        · exact ⟨⟨draft, typed⟩, fun _ => rfl⟩
        · exact typed.handle_sound nofun

/-- A key press forgets a typed CR, whatever becomes of the key. -/
theorem Shows.onKey_sound (shows : editor.Shows draft) (key : Key) :
    Sound editor.roomToType (fun next => next = { editor with afterTypedCr := next.afterTypedCr })
      .applied (editor.onKey key) := by
  apply Sound.ofTypedCr false
  have typed := shows.withTypedCr false
  cases key <;> exact typed.handle_sound nofun

theorem Shows.onMouseDown_sound (shows : editor.Shows draft) (x y : κ) :
    Sound most (fun next => next = { editor with afterTypedCr := next.afterTypedCr }) .applied
      (editor.onMouseDown x y) := by
  apply Sound.ofTypedCr false
  exact ((shows.withTypedCr false).moveToPoint x y).sound Bool.noConfusion

theorem Shows.onPaste_sound (shows : editor.Shows draft) (text : String) :
    Sound (editor.roomToPaste text)
      (fun next => next = { editor with afterTypedCr := next.afterTypedCr }) .pasted
      (editor.onPaste text) := by
  apply Sound.ofTypedCr false
  exact (shows.withTypedCr false).paste_sound text

theorem Shows.tick (shows : editor.Shows draft) : editor.tick.1.Shows draft :=
  shows.of_same rfl rfl rfl rfl

theorem Shows.pollEvents (shows : editor.Shows draft) : editor.pollEvents.1.Shows draft :=
  shows.of_same rfl rfl rfl rfl

/-! ## The step -/

/-- Every call leaves an editor that shows some draft, and a call that is turned
down leaves what it has to leave alone. -/
theorem Shows.step (shows : editor.Shows draft) (call : Call κ) :
    Sound (editor.roomFor call) (fun next => ¬ call.IsTick → call.Keeps editor next) id
      (editor.step call) := by
  have keeps : ∀ {α : Type} {report : α → Answer} {kept : Editor κ → Prop}
      {outcome : Checked (Editor κ × α)}, Sound (editor.roomFor call) kept report outcome →
      (∀ next, kept next → call.Keeps editor next) →
      Sound (editor.roomFor call) (fun next => ¬ call.IsTick → call.Keeps editor next) report
        outcome :=
    fun sound same => sound.mono fun next kept _ => same next kept
  cases call with
  | loadDocument text =>
      exact (keeps (shows.loadDocument_sound text) fun _ => id).reported
  | loadAnswer answer =>
      exact (keeps (shows.loadAnswer_sound answer) fun _ => id).reported
  | insertChar char => exact (keeps (shows.insertChar_sound char) fun _ => id).reported
  | insertLine => exact (keeps shows.insertLine_sound fun _ => id).reported
  | deleteChar => exact (keeps shows.deleteChar_sound fun _ => id).reported
  | indent => exact (keeps shows.indent_sound fun _ => id).reported
  | outdent => exact (keeps shows.outdent_sound fun _ => id).reported
  | paste text => exact (keeps (shows.paste_sound text) fun _ => id).reported
  | pasteFrom clipboard =>
      exact (keeps (shows.pasteFrom_sound clipboard) fun _ => id).reported
  | onPaste text => exact (keeps (shows.onPaste_sound text) fun _ => id).reported
  | handle message =>
      by_cases frame : message = .tick
      · subst frame
        exact ⟨⟨draft, shows.tick⟩, fun _ other => absurd trivial other⟩
      · exact (keeps (shows.handle_sound frame) fun _ => id).reported
  | onCharacter char => exact (keeps (shows.onCharacter_sound char) fun _ => id).reported
  | onKey key => exact (keeps (shows.onKey_sound key) fun _ => id).reported
  | onMouseDown x y => exact (keeps (shows.onMouseDown_sound x y) fun _ => id).reported
  | move motion => exact keeps (shows.move_sound motion id) fun _ => id
  | moveToPosition position =>
      exact keeps ((shows.moveToPosition position).sound id) fun _ => id
  | moveToPoint x y => exact keeps ((shows.moveToPoint x y).sound id) fun _ => id
  | setOrigin x y => exact ⟨⟨draft, shows.setOrigin x y⟩, False.elim⟩
  | setKeywords words =>
      obtain ⟨next, colours, nextShows, -⟩ := shows.setKeywords words
      rw [Editor.step, colours]
      exact ⟨⟨draft, nextShows⟩, False.elim⟩
  | tick => exact ⟨⟨draft, shows.tick⟩, fun _ other => absurd trivial other⟩
  | pollEvents => exact ⟨⟨draft, shows.pollEvents⟩, False.elim⟩

end Operations

/-! ## The run -/

/-- A run begins with its first call. -/
theorem run_cons {editor next last : Editor κ} {call : Call κ} {later : List (Call κ)}
    {answer : Answer} {answers : List Answer} (steps : editor.step call = .ok (next, answer))
    (runs : next.run later = .ok (last, answers)) :
    editor.run (call :: later) = .ok (last, answer :: answers) := by
  rw [Editor.run, steps]
  change (next.run later >>= _) = _
  rw [runs]
  rfl

/-- A run that goes through begins with a call that does. -/
theorem exists_of_run_cons {editor last : Editor κ} {call : Call κ} {later : List (Call κ)}
    {answers : List Answer} (runs : editor.run (call :: later) = .ok (last, answers)) :
    ∃ next answer rest, editor.step call = .ok (next, answer) ∧
      next.run later = .ok (last, rest) ∧ answers = answer :: rest := by
  rw [Editor.run] at runs
  cases steps : editor.step call with
  | error fault =>
      rw [steps] at runs
      exact absurd runs nofun
  | ok pair =>
      rw [steps] at runs
      change (pair.1.run later >>= _) = _ at runs
      cases goesOn : pair.1.run later with
      | error fault =>
          rw [goesOn] at runs
          exact absurd runs nofun
      | ok rest =>
          rw [goesOn] at runs
          obtain ⟨rfl, rfl⟩ := Prod.mk.inj (Except.ok.inj runs)
          exact ⟨pair.1, pair.2, rest.2, rfl, goesOn, rfl⟩

/-- Two runs one after the other are one run. -/
theorem run_append {editor middle last : Editor κ} {first second : List (Call κ)}
    {answers rest : List Answer} (runs : editor.run first = .ok (middle, answers))
    (goesOn : middle.run second = .ok (last, rest)) :
    editor.run (first ++ second) = .ok (last, answers ++ rest) := by
  induction first generalizing editor answers with
  | nil =>
      obtain ⟨rfl, rfl⟩ := Prod.mk.inj (Except.ok.inj runs)
      exact goesOn
  | cons call later inductionHypothesis =>
      obtain ⟨next, answer, others, steps, continues, rfl⟩ := exists_of_run_cons runs
      exact run_cons steps (inductionHypothesis continues)

/-- The editors that calls lead to.  A capacity is a machine word. -/
inductive Reachable : Editor κ → Prop
  | created {settings : Settings κ} {metrics : GlyphMetrics κ} {editor : Editor κ}
      (word : settings.capacity ≤ Word.largest) (creates : create settings metrics = .ok editor) :
      Reachable editor
  | stepped {editor next : Editor κ} {call : Call κ} {answer : Answer}
      (reachable : Reachable editor) (steps : editor.step call = .ok (next, answer)) :
      Reachable next

/-- A new editor shows the blank draft. -/
theorem shows_blank {settings : Settings κ} (metrics : GlyphMetrics κ)
    (word : settings.capacity ≤ Word.largest) :
    (ofSettings settings metrics).Shows Draft.blank where
  text := rfl
  row := rfl
  caret := rfl
  bounded := Nat.zero_le _
  words := word
  table := by
    have tokens : (if (Options.ofSettings settings).syntaxHighlight then
        tokensOfLine (KeywordSet.ofList settings.keywords) metrics
          (Options.ofSettings settings).textSize [] false
        else []) = ([] : List (Token κ)) := by
      rw [tokensOfLine, tokensFrom]
      exact ite_self _
    change [Line.bare 0 0 0 _] = [Look.rule _ 0 0 [] false]
    rw [Look.rule]
    exact congrArg (fun tokens => [Line.mk 0 0 0 0 _ tokens]) tokens.symm
  unbroken := Draft.unbrokenLines_blank
  indentLevel := by
    change 0 = indentUnits _ []
    simp [indentUnits]

theorem create_eq {settings : Settings κ} {metrics : GlyphMetrics κ} {editor : Editor κ}
    (creates : create settings metrics = .ok editor) : editor = ofSettings settings metrics := by
  unfold create IndentUnit.ensureHeld at creates
  split at creates
  · exact (Except.ok.inj creates).symm
  · exact absurd creates nofun

/-- The run invariant: every editor that calls lead to shows a draft. -/
theorem Reachable.shows {editor : Editor κ} (reachable : Reachable editor) :
    ∃ draft, editor.Shows draft := by
  induction reachable with
  | created word creates =>
      rw [create_eq creates]
      exact ⟨Draft.blank, shows_blank _ word⟩
  | @stepped _ _ call _ reachable steps inductionHypothesis =>
      obtain ⟨draft, shows⟩ := inductionHypothesis
      have sound := shows.step call
      rw [steps] at sound
      exact sound.1

/-- A run that goes through ends in a reachable editor, and all that can stop it
is a length that no word holds. -/
def Proceeds : Checked (Editor κ × List Answer) → Prop
  | .ok (last, _) => Reachable last
  | .error fault => fault = .countTooLarge

/-- A run proceeds from every editor that calls lead to. -/
theorem Reachable.run {editor : Editor κ} (reachable : Reachable editor)
    (calls : List (Call κ)) : Proceeds (editor.run calls) := by
  induction calls generalizing editor with
  | nil => exact reachable
  | cons call later inductionHypothesis =>
      obtain ⟨draft, shows⟩ := reachable.shows
      have sound := shows.step call
      cases steps : editor.step call with
      | error fault =>
          rw [steps] at sound
          rw [Editor.run, steps]
          exact sound.1
      | ok pair =>
          obtain ⟨next, answer⟩ := pair
          have rest := inductionHypothesis (.stepped reachable steps)
          rw [Editor.run, steps]
          change Proceeds (next.run later >>= _)
          cases runs : next.run later with
          | error fault =>
              rw [runs] at rest
              exact rest
          | ok pair =>
              rw [runs] at rest
              exact rest

/-- What a run ends with is reachable again. -/
theorem Reachable.last {editor last : Editor κ} {calls : List (Call κ)} {answers : List Answer}
    (reachable : editor.Reachable) (runs : editor.run calls = .ok (last, answers)) :
    last.Reachable := by
  have proceeds := reachable.run calls
  rwa [runs] at proceeds

/-- The lengths that calls can ask for, one after the other, are words. -/
def Moderate : Editor κ → List (Call κ) → Prop
  | _, [] => True
  | editor, call :: later =>
      editor.roomFor call ≤ Word.largest ∧
        ∀ next answer, editor.step call = .ok (next, answer) → Moderate next later

/-- Nothing stops a run that asks for moderate lengths. -/
theorem Reachable.run_of_moderate {editor : Editor κ} (reachable : editor.Reachable)
    {calls : List (Call κ)} (moderate : editor.Moderate calls) :
    ∃ last answers, editor.run calls = .ok (last, answers) := by
  induction calls generalizing editor with
  | nil => exact ⟨editor, [], rfl⟩
  | cons call later inductionHypothesis =>
      obtain ⟨draft, shows⟩ := reachable.shows
      obtain ⟨room, after⟩ := moderate
      have sound := shows.step call
      cases steps : editor.step call with
      | error fault =>
          rw [steps] at sound
          exact absurd room (Nat.not_le.mpr sound.2)
      | ok pair =>
          obtain ⟨next, answer⟩ := pair
          obtain ⟨last, answers, runs⟩ :=
            inductionHypothesis (.stepped reachable steps) (after next answer steps)
          exact ⟨last, answer :: answers, run_cons steps runs⟩

/-- A run that nothing stops. -/
theorem Reachable.of_run {editor : Editor κ} (reachable : editor.Reachable)
    (calls : List (Call κ)) (goesOn : (editor.run calls).isOk = true) :
    ∃ last answers, editor.run calls = .ok (last, answers) ∧ last.Reachable := by
  cases runs : editor.run calls with
  | error fault =>
      rw [runs] at goesOn
      exact absurd goesOn Bool.false_ne_true
  | ok pair => exact ⟨pair.1, pair.2, rfl, reachable.last runs⟩

/-- A run that leads to an editor of a kind. -/
theorem Reachable.of_run_to {editor : Editor κ} (reachable : editor.Reachable)
    (calls : List (Call κ)) (kind : Editor κ → Prop) [DecidablePred kind]
    (leads : (editor.run calls).toOption.any (fun ends => decide (kind ends.1)) = true) :
    ∃ last answers, editor.run calls = .ok (last, answers) ∧ last.Reachable ∧ kind last := by
  obtain ⟨⟨last, answers⟩, found, holds⟩ := (Option.any_eq_true _ _).mp leads
  have runs := eq_ok_of_toOption found
  exact ⟨last, answers, runs, reachable.last runs, of_decide_eq_true holds⟩

/-- A new editor of a user who has chosen nothing. -/
def standard : Editor Float32 :=
  ofSettings Settings.standard (GlyphMetrics.monospace GlyphMetrics.standardCell)

theorem reachable_standard : standard.Reachable := by
  have creates :
      create Settings.standard (GlyphMetrics.monospace GlyphMetrics.standardCell) = .ok standard :=
    rfl
  exact .created (by decide) creates

end Editor

end EditorCore
