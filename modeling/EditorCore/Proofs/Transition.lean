import EditorCore.Proofs.Request

/-!
Contract: all that a call can do to an editor.

Owns:
- `Editor.Leaves`, the ways in which an editor that shows a draft can be left by a
  request, and what none of them changes;
- the length that a request asks the document to have, to the character;
- that every request is carried out in one of these ways unless that length is
  none that a word holds;
- what this leaves as it is along a run: metrics, options and the distance between lines.

Does not own: what becomes of the text.
-/

namespace EditorCore

namespace Editor

variable {κ : Type} [Coordinate κ] {editor : Editor κ} {draft : Draft}

/-! ## The ways -/

/-- What is left of an editor that shows a draft, and the draft that it shows
then. -/
inductive Leaves (editor : Editor κ) (draft : Draft) : Editor κ → Draft → Prop
  | kept : Leaves editor draft editor draft
  /-- An edit, a motion or a load has ended.  A load has chosen how to save. -/
  | settled {next : Editor κ} {target : Draft} {desired : Option Nat} (ending : LineEnding)
      (settled : Settled { editor with ending } next desired target) :
      Leaves editor draft next target
  | arranged (x y : κ) : Leaves editor draft (editor.setOrigin x y) draft
  | coloured {next : Editor κ} (words : List String) (shows : next.Shows draft)
      (around : next.surroundings = ({ editor with
        lexer := editor.lexer.setKeywords words } : Editor κ).surroundings) :
      Leaves editor draft next draft
  | ticked : Leaves editor draft editor.tick.1 draft
  | polled : Leaves editor draft editor.pollEvents.1 draft

theorem Leaves.afterTypedCr_eq {next : Editor κ} {target : Draft}
    (leaves : editor.Leaves draft next target) : next.afterTypedCr = editor.afterTypedCr := by
  cases leaves with
  | kept => rfl
  | settled ending settled => exact congrArg Surroundings.afterTypedCr settled.around
  | arranged x y => rfl
  | coloured words shows around => exact congrArg Surroundings.afterTypedCr around
  | ticked => rfl
  | polled => rfl

theorem Leaves.metrics_eq {next : Editor κ} {target : Draft}
    (leaves : editor.Leaves draft next target) : next.metrics = editor.metrics := by
  cases leaves with
  | kept => rfl
  | settled ending settled =>
      exact congrArg (fun around => around.look.metrics) settled.around
  | arranged x y => rfl
  | coloured words shows around => exact congrArg (fun around => around.look.metrics) around
  | ticked => rfl
  | polled => rfl

/-- No call changes the options. -/
theorem Leaves.options_eq {next : Editor κ} {target : Draft}
    (leaves : editor.Leaves draft next target) : next.options = editor.options := by
  cases leaves with
  | kept => rfl
  | settled ending settled =>
      exact congrArg (fun around => around.look.options) settled.around
  | arranged x y => rfl
  | coloured words shows around => exact congrArg (fun around => around.look.options) around
  | ticked => rfl
  | polled => rfl

/-- Wherever the widget is moved, its lines stand as far apart as the options say. -/
theorem Leaves.lineHeight_eq {next : Editor κ} {target : Draft}
    (leaves : editor.Leaves draft next target)
    (height : editor.lines.layout.lineHeight = editor.options.lineHeight) :
    next.lines.layout.lineHeight = next.options.lineHeight := by
  rw [leaves.options_eq]
  cases leaves with
  | kept => exact height
  | settled ending settled =>
      have layout : next.lines.layout = editor.lines.layout :=
        congrArg (fun around => around.look.layout) settled.around
      rw [layout, height]
  | arranged x y => rfl
  | coloured words shows around =>
      have layout : next.lines.layout = editor.lines.layout :=
        congrArg (fun around => around.look.layout) around
      rw [layout, height]
  | ticked => exact height
  | polled => exact height

/-! ## What requests ask for -/

/-- The length of the document after Enter, with the indentation that Enter
repeats. -/
def lengthEntered (editor : Editor κ) : Nat :=
  match if editor.options.autoIndent then editor.indentBeforeCaret else .ok 0 with
  | .ok level =>
      editor.buffer.length + (separatorLength + level * editor.options.indentUnit.length)
  | .error _ => editor.buffer.length

/-- The length that a request asks the document to have. -/
def lengthFor (editor : Editor κ) : Request κ → Nat
  | .edit (.character char) =>
      if isBreak char then editor.lengthEntered else editor.buffer.length + 1
  | .edit .newline => editor.lengthEntered
  | .edit .tab => editor.buffer.length + editor.options.indentUnit.length
  | .edit (.paste text) => editor.buffer.length + joinedLength (segments text.toList)
  | _ => editor.buffer.length

/-- What Enter asks for, by the draft: a separator and the units of its level. -/
theorem Represents.lengthEntered_eq (represents : editor.Represents draft) :
    editor.lengthEntered = draft.text.length +
      (separatorLength + draft.level editor.options * editor.options.indentUnit.length) := by
  unfold lengthEntered Draft.level
  rw [← represents.length]
  cases editor.options.autoIndent with
  | false => rfl
  | true =>
      simp only [if_true]
      rw [represents.indentBeforeCaret]

/-! ## Outcomes -/

/-- An outcome leaves the editor in one of the ways.  All that can stop it is a
length that no word holds and that is not past the one asked for. -/
def Transits (most : Nat) (editor : Editor κ) (draft : Draft) : Checked (Editor κ) → Prop
  | .ok next => ∃ target, editor.Leaves draft next target
  | .error fault => fault = .countTooLarge ∧ Word.largest < most

section Outcomes

variable {most : Nat}

/-- A call that ends as a verdict says transits if the verdict's length is in sight. -/
theorem Ends.transits {α : Type} {yes no : α} {full : Nat → α} {verdict : Verdict Draft}
    {outcome : Checked (Editor κ × α)} (ends : editor.Ends yes no full verdict outcome)
    (room : verdict.AtMost most) : Transits most editor draft (outcome.map Prod.fst) := by
  cases verdict with
  | accepted target =>
      obtain ⟨next, rfl, settled⟩ := ends
      exact ⟨target, .settled editor.ending settled⟩
  | declined =>
      subst ends
      exact ⟨draft, .kept⟩
  | full required =>
      subst ends
      unfold ifWord
      split
      · exact ⟨draft, .kept⟩
      · rename_i tooLong
        exact ⟨rfl, Nat.lt_of_lt_of_le (Nat.lt_of_not_le tooLong) room⟩

/-- A motion that arrives transits, whatever there is room for. -/
theorem Arrives.transits {desired : Option Nat} {position : Position}
    {outcome : Checked (Editor κ)} (arrives : editor.Arrives draft desired position outcome) :
    Transits most editor draft outcome := by
  obtain ⟨last, rfl, settled⟩ := arrives
  exact ⟨_, .settled editor.ending settled⟩

end Outcomes

/-! ## Requests -/

theorem Shows.transits_enter (shows : editor.Shows draft) :
    Transits editor.lengthEntered editor draft (editor.insertLine.map Prod.fst) := by
  apply Ends.transits shows.insertLine
  rw [shows.lengthEntered_eq]
  unfold Draft.enter
  split
  · exact Verdict.atMost_within (Nat.le_refl _)
  · trivial

theorem Shows.transits_character (shows : editor.Shows draft) (char : Char) :
    Transits (editor.lengthFor (.edit (.character char))) editor draft
      ((editor.insertChar char).map Prod.fst) := by
  rw [Editor.insertChar, lengthFor]
  by_cases ends : isBreak char = true
  · rw [if_pos ends, if_pos ends]
    exact shows.transits_enter
  · rw [if_neg ends, if_neg ends, shows.length]
    have clean : Unbroken [char] := unbroken_singleton.mpr (Bool.eq_false_iff.mpr ends)
    exact Ends.transits (shows.typeRun clean) (Verdict.atMost_within (Nat.le_refl _))

theorem Shows.transits_tab (shows : editor.Shows draft) :
    Transits (editor.lengthFor (.edit .tab)) editor draft (editor.indent.map Prod.fst) := by
  rw [lengthFor, shows.length, ← IndentUnit.length_chars]
  exact Ends.transits shows.indent (Verdict.atMost_within (Nat.le_refl _))

theorem Shows.transits_stepBack (shows : editor.Shows draft) {most : Nat} :
    Transits most editor draft (editor.outdent.map Prod.fst) :=
  Ends.transits shows.outdent (Draft.atMost_stepBack editor.options most draft)

theorem Shows.transits_paste (shows : editor.Shows draft) (text : String) :
    Transits (editor.lengthFor (.edit (.paste text))) editor draft
      ((editor.paste text).map Prod.fst) := by
  by_cases empty : text.toList = []
  · rw [Editor.paste, if_pos empty]
    exact ⟨draft, .kept⟩
  · rw [lengthFor, shows.length]
    exact Ends.transits (shows.paste empty)
      (Draft.atMost_paste editor.options editor.buffer.capacity draft (segments text.toList))

/-- Every edit transits, with the length that it asks for. -/
theorem Shows.transits_edit (shows : editor.Shows draft) (edit : Edit) :
    Transits (editor.lengthFor (.edit edit)) editor draft (editor.perform (.edit edit)) := by
  cases edit with
  | character char =>
      rw [perform_character]
      exact shows.transits_character char
  | newline =>
      rw [perform_newline]
      exact shows.transits_enter
  | tab =>
      rw [perform_tab]
      exact shows.transits_tab
  | backspace =>
      rw [perform_backspace, shows.deleteChar_eq]
      exact shows.transits_stepBack
  | outdent =>
      rw [perform_outdent]
      exact shows.transits_stepBack
  | paste text =>
      rw [perform_paste]
      exact shows.transits_paste text

/-- Loading asks for no more than the capacity, so no word is too small for it. -/
theorem Shows.transits_load (shows : editor.Shows draft) (text : String) {most : Nat} :
    Transits most editor draft (editor.perform (.load text)) := by
  rw [Editor.perform]
  by_cases fits : joinedLength (segments text.toList) ≤ editor.buffer.capacity
  · obtain ⟨next, loads, settled⟩ := shows.loadDocument fits
    rw [loads]
    exact ⟨_, .settled _ settled⟩
  · rw [loadDocument_of_full (Nat.lt_of_not_le fits)]
    exact ⟨draft, .kept⟩

theorem Shows.transits_go (shows : editor.Shows draft) (motion : Motion) {most : Nat} :
    Transits most editor draft (editor.perform (.go motion)) := by
  rw [Editor.perform]
  have moves := shows.move motion
  split at moves
  · exact moves.transits
  · rw [moves]
    exact ⟨draft, .kept⟩

/-- The step lemma of requests: every request transits, with the length that it asks for. -/
theorem Shows.perform (shows : editor.Shows draft) (request : Request κ) :
    Transits (editor.lengthFor request) editor draft (editor.perform request) := by
  cases request with
  | nothing => exact ⟨draft, .kept⟩
  | edit edit => exact shows.transits_edit edit
  | load text => exact shows.transits_load text
  | go motion => exact shows.transits_go motion
  | place position => exact (shows.moveToPosition position).transits
  | point x y => exact (shows.moveToPoint x y).transits
  | arrange x y => exact ⟨draft, .arranged x y⟩
  | colour words =>
      obtain ⟨next, colours, nextShows, around⟩ := shows.setKeywords words
      rw [Editor.perform, colours]
      exact ⟨draft, .coloured words nextShows around⟩
  | frame => exact ⟨draft, .ticked⟩
  | fetch => exact ⟨draft, .polled⟩

theorem Shows.heard (shows : editor.Shows draft) (call : Call κ) :
    (editor.heard call).Shows draft :=
  shows.withTypedCr _

/-- The step lemma of calls: a call leaves the editor in one of the known ways. -/
theorem Shows.leaves_of_step {next : Editor κ} {call : Call κ} {answer : Answer}
    (shows : editor.Shows draft) (steps : editor.step call = .ok (next, answer)) :
    ∃ target, (editor.heard call).Leaves draft next target := by
  have transits := (shows.heard call).perform (call.request editor.afterTypedCr)
  rwa [step_eq_ok steps] at transits

/-- What lines are measured by stays what it is. -/
theorem Reachable.fixed_of_run (reachable : editor.Reachable) {calls : List (Call κ)}
    {last : Editor κ} {answers : List Answer} (runs : editor.run calls = .ok (last, answers)) :
    last.metrics = editor.metrics ∧ last.options = editor.options := by
  induction calls generalizing editor answers with
  | nil =>
      obtain ⟨rfl, -⟩ := Prod.mk.inj (Except.ok.inj runs)
      exact ⟨rfl, rfl⟩
  | cons call later inductionHypothesis =>
      obtain ⟨next, answer, rest, steps, goesOn, -⟩ := exists_of_run_cons runs
      obtain ⟨draft, shows⟩ := reachable.shows
      obtain ⟨target, leaves⟩ := shows.leaves_of_step steps
      obtain ⟨metrics, options⟩ := inductionHypothesis (.stepped reachable steps) goesOn
      exact ⟨metrics.trans leaves.metrics_eq, options.trans leaves.options_eq⟩

theorem Reachable.lineHeight_eq (reachable : editor.Reachable) :
    editor.lines.layout.lineHeight = editor.options.lineHeight := by
  induction reachable with
  | created word creates =>
      rw [create_eq creates]
      rfl
  | stepped reachable steps inductionHypothesis =>
      obtain ⟨draft, shows⟩ := reachable.shows
      obtain ⟨target, leaves⟩ := shows.leaves_of_step steps
      exact leaves.lineHeight_eq inductionHypothesis

end Editor

end EditorCore
