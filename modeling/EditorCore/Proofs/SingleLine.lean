import EditorCore.Proofs.Pasting
import EditorCore.Proofs.Positions
import EditorCore.Proofs.Settling

/-!
Contract: where there is one line only, no input opens another.

Owns:
- `Patched`, a text in which one stretch has given way to a run without breaks;
- `Draft.Narrows`, a draft without a new break or a new line, and that all drafts are such
  that edits lead to where lines cannot be opened;
- that every call but a load leaves such a draft, and that along any run without a load
  there are never more lines or breaks;
- that a paste without breaks is taken whenever it fits.

Does not own: loading, which brings all lines of its document along.
-/

namespace EditorCore

/-! ## Texts -/

/-- In a text, one stretch has given way to a run without breaks. -/
def Patched (before after : List Char) : Prop :=
  ∃ front old run back, before = front ++ old ++ back ∧ after = front ++ run ++ back ∧
    Unbroken run

theorem Patched.refl (text : List Char) : Patched text text :=
  ⟨text, [], [], [], by simp, by simp, unbroken_nil⟩

/-- No break is new. -/
theorem Patched.breaks_sublist {before after : List Char} (patched : Patched before after) :
    (after.filter isBreak).Sublist (before.filter isBreak) := by
  obtain ⟨front, old, run, back, rfl, rfl, clean⟩ := patched
  have nothing : run.filter isBreak = [] :=
    List.filter_eq_nil_iff.mpr fun char member => Bool.eq_false_iff.mp (clean char member)
  simp only [List.filter_append, nothing, List.append_nil]
  exact (List.sublist_append_left _ _).append (List.Sublist.refl _)

/-! ## Drafts -/

namespace Draft

variable {κ : Type} {options : Options κ} {capacity : Nat} {draft target : Draft}
  {run : List Char}

/-- A draft comes of another without a new break or a new line. -/
structure Narrows (draft target : Draft) : Prop where
  text : Patched draft.text target.text
  lines : target.lines.length ≤ draft.lines.length

/-- A draft with the same lines is no wider. -/
theorem narrows_of_lines (same : target.lines = draft.lines) : draft.Narrows target where
  text := by
    rw [Draft.text, Draft.text, same]
    exact .refl _
  lines := Nat.le_of_eq (congrArg List.length same)

theorem narrows_typed (clean : Unbroken run) : draft.Narrows (draft.typed run) where
  text := by
    refine ⟨draft.leading, [], run, draft.trailing, ?_, ?_, clean⟩
    · rw [text_eq, List.append_nil]
    · rw [text_eq, leading_typed, trailing_typed]
  lines := by simp [lines, typed]

theorem narrows_shortened (draft : Draft) (count : Nat) :
    draft.Narrows (draft.shortened count) where
  text := by
    have whole : (draft.shortened count).leading ++ draft.before.drop (draft.column - count) =
        draft.leading := by
      change flow true draft.above ++ draft.before.take (draft.column - count) ++
        draft.before.drop (draft.column - count) = flow true draft.above ++ draft.before
      rw [List.append_assoc, List.take_append_drop]
    refine ⟨(draft.shortened count).leading, draft.before.drop (draft.column - count), [],
      draft.trailing, ?_, ?_, unbroken_nil⟩
    · rw [text_eq, whole]
    · rw [text_eq, trailing_shortened, List.append_nil]
  lines := by simp [lines, shortened]

/-- Joining lines takes a break away. -/
theorem narrows_foldedOnto {higher : List (List Char)} {last : List Char}
    (split : draft.above = higher ++ [last]) (atStart : draft.before = []) :
    draft.Narrows (draft.foldedOnto higher last) where
  text := by
    refine ⟨(draft.foldedOnto higher last).leading, separator, [], draft.trailing, ?_, ?_,
      unbroken_nil⟩
    · rw [text_eq, leading_foldedOnto split atStart]
    · rw [text_eq, trailing_foldedOnto atStart, List.append_nil]
  lines := by
    simp [lines, foldedOnto, split]

/-! ### Accepted edits -/

theorem narrows_type (clean : Unbroken run) (accepts : draft.type capacity run = .accepted target) :
    draft.Narrows target := by
  obtain ⟨-, rfl⟩ := Verdict.within_eq_accepted.mp accepts
  exact narrows_typed clean

/-- Without multiline there is no Enter that could widen. -/
theorem narrows_enter (single : options.multiline = false)
    (accepts : draft.enter options capacity = .accepted target) : draft.Narrows target := by
  obtain ⟨multiline, -⟩ := enter_eq_accepted.mp accepts
  exact absurd (single.symm.trans multiline) Bool.false_ne_true

theorem narrows_eraseChar (accepts : draft.eraseChar = .accepted target) :
    draft.Narrows target := by
  unfold eraseChar at accepts
  split at accepts
  · obtain rfl := Verdict.accepted.inj accepts
    exact draft.narrows_shortened 1
  · rename_i atStart
    have nothing : draft.before = [] := List.length_eq_zero_iff.mp (Nat.eq_zero_of_not_pos atStart)
    split at accepts
    · rename_i folded folds
      obtain rfl := Verdict.accepted.inj accepts
      obtain ⟨last, found, -⟩ := Option.map_eq_some_iff.mp folds
      obtain ⟨higher, split⟩ := List.getLast?_eq_some_iff.mp found
      rw [folded?_eq split] at folds
      obtain rfl := Option.some.inj folds
      exact narrows_foldedOnto split nothing
    · exact absurd accepts nofun

theorem narrows_stepBack (accepts : draft.stepBack options = .accepted target) :
    draft.Narrows target := by
  unfold stepBack at accepts
  split at accepts
  · obtain rfl := Verdict.accepted.inj accepts
    exact draft.narrows_shortened _
  · exact narrows_eraseChar accepts

/-- What is pasted where lines cannot be opened is a single piece. -/
theorem narrows_paste {text : List Char} (single : options.multiline = false)
    (accepts : draft.paste options capacity (segments text) = .accepted target) :
    draft.Narrows target := by
  obtain ⟨allowed, -, rfl⟩ := paste_eq_accepted.mp accepts
  -- More than one piece would have needed lines to be allowed.
  cases pieces : segments text with
  | nil => exact absurd pieces (segments_ne_nil text)
  | cons first later =>
      rw [pieces] at allowed
      have clean : Unbroken first := segments_unbroken (pieces ▸ List.mem_cons_self)
      cases later with
      | nil => exact narrows_typed clean
      | cons second others =>
          have multiline := allowed (by simp)
          exact absurd (single.symm.trans multiline) Bool.false_ne_true

theorem narrows_goTo {position : Position} (inside : position.line < draft.lines.length) :
    draft.Narrows (draft.goTo position) := by
  obtain ⟨line, found⟩ := draft.exists_line position.line inside
  exact narrows_of_lines (lines_goTo found)

end Draft

/-- Where lines cannot be opened, every accepted edit narrows the draft. -/
theorem Manuscript.narrows_verdict {manuscript : Manuscript} {target : Draft} {edit : Edit}
    (single : manuscript.rules.multiline = false)
    (accepts : manuscript.verdict edit = .accepted target) : manuscript.draft.Narrows target := by
  cases edit with
  | character char =>
      rw [verdict] at accepts
      split at accepts
      · exact Draft.narrows_enter single accepts
      · rename_i ordinary
        have clean : Unbroken [char] := unbroken_singleton.mpr (Bool.eq_false_iff.mpr ordinary)
        exact Draft.narrows_type clean accepts
  | newline => exact Draft.narrows_enter single accepts
  | tab => exact Draft.narrows_type (Draft.indentUnit_unbroken _) accepts
  | backspace => exact Draft.narrows_stepBack accepts
  | outdent => exact Draft.narrows_stepBack accepts
  | paste text => exact Draft.narrows_paste single accepts

/-! ## Calls -/

variable {κ : Type}

/-- The request replaces the document. -/
def Request.isLoad : Request κ → Bool
  | .load _ => true
  | _ => false

theorem Request.isLoad_ofTyped (afterCr : Bool) (char : Char) :
    (Request.ofTyped afterCr char : Request κ).isLoad = false := by
  unfold Request.ofTyped
  repeat' split
  all_goals rfl

namespace Call

/-- The call may replace the document. -/
def isLoading : Call κ → Bool
  | .loadDocument _ | .loadAnswer _ => true
  | _ => false

/-- The call pastes a text, which comes along or from a clipboard. -/
def Pastes (text : String) : Call κ → Prop
  | .paste pasted | .onPaste pasted | .handle (.paste pasted) => pasted = text
  | .pasteFrom clipboard => clipboard.read = .ok text
  | _ => False

theorem isLoad_request {call : Call κ} (other : call.isLoading = false) (afterCr : Bool) :
    (call.request afterCr).isLoad = false := by
  cases call with
  | loadDocument text => exact absurd other Bool.noConfusion
  | loadAnswer answer => exact absurd other Bool.noConfusion
  | handle message => cases message <;> rfl
  | onKey key => cases key <;> rfl
  | onCharacter char => exact Request.isLoad_ofTyped afterCr char
  | pasteFrom clipboard =>
      rw [request]
      cases clipboard.read <;> rfl
  | _ => rfl

end Call

namespace Editor

variable [Coordinate κ] {editor next : Editor κ} {draft target : Draft}

/-- The drafts of an editor that stays or narrows. -/
theorem Settles.exists_narrows (settles : editor.Settles draft.Narrows (.ok next))
    (shows : editor.Shows draft) : ∃ target, next.Shows target ∧ draft.Narrows target := by
  rcases settles next rfl with rfl | ⟨ending, desired, target, narrows, settled⟩
  · exact ⟨draft, shows, Draft.narrows_of_lines rfl⟩
  · exact ⟨target, settled.toShows, narrows⟩

/-- Where lines cannot be opened, only a load brings breaks and lines in. -/
theorem Shows.narrows (shows : editor.Shows draft) (single : editor.options.multiline = false)
    {request : Request κ} (other : request.isLoad = false)
    (performs : editor.perform request = .ok next) :
    ∃ target, next.Shows target ∧ draft.Narrows target := by
  have same : draft.Narrows draft := Draft.narrows_of_lines rfl
  have goes : ∀ position : Position, position.line < draft.lines.length →
      draft.Narrows (draft.goTo position) := fun _ => Draft.narrows_goTo
  cases request with
  | nothing => exact ⟨draft, Except.ok.inj performs ▸ shows, same⟩
  | edit edit =>
      have narrows : ∀ target, (editor.manuscript draft).verdict edit = .accepted target →
          draft.Narrows target := fun _ accepts => Manuscript.narrows_verdict single accepts
      exact (performs ▸ shows.settles_edit edit narrows).exists_narrows shows
  | load text => exact absurd other Bool.noConfusion
  | go motion => exact (performs ▸ shows.settles_go goes motion).exists_narrows shows
  | place position => exact (performs ▸ shows.settles_place goes position).exists_narrows shows
  | point x y => exact (performs ▸ shows.settles_point goes x y).exists_narrows shows
  | arrange x y => exact ⟨draft, Except.ok.inj performs ▸ shows.setOrigin x y, same⟩
  | colour words =>
      obtain ⟨last, colours, lastShows, -⟩ := shows.setKeywords words
      obtain rfl := Except.ok.inj (colours.symm.trans performs)
      exact ⟨draft, lastShows, same⟩
  | frame => exact ⟨draft, Except.ok.inj performs ▸ shows.tick, same⟩
  | fetch => exact ⟨draft, Except.ok.inj performs ▸ shows.pollEvents, same⟩

/-- A call leaves no new break and no new line. -/
theorem Reachable.confined_step (reachable : editor.Reachable)
    (single : editor.options.multiline = false) {call : Call κ} {answer : Answer}
    (other : call.isLoading = false) (steps : editor.step call = .ok (next, answer)) :
    Patched editor.buffer.toList next.buffer.toList ∧ next.lines.size ≤ editor.lines.size := by
  obtain ⟨draft, shows⟩ := reachable.shows
  obtain ⟨target, nextShows, narrows⟩ := (shows.heard call).narrows single
    (call.isLoad_request other editor.afterTypedCr) (step_eq_ok steps)
  rw [shows.text, nextShows.text, shows.size, nextShows.size]
  exact ⟨narrows.text, narrows.lines⟩

/-- Along a run there come neither breaks nor lines. -/
theorem Reachable.confined_run (reachable : editor.Reachable)
    (single : editor.options.multiline = false) {calls : List (Call κ)} {last : Editor κ}
    {answers : List Answer} (others : ∀ call ∈ calls, call.isLoading = false)
    (runs : editor.run calls = .ok (last, answers)) :
    (last.buffer.toList.filter isBreak).Sublist (editor.buffer.toList.filter isBreak) ∧
      last.lines.size ≤ editor.lines.size := by
  induction calls generalizing editor answers with
  | nil =>
      obtain ⟨rfl, -⟩ := Prod.mk.inj (Except.ok.inj runs)
      exact ⟨.refl _, Nat.le_refl _⟩
  | cons call later inductionHypothesis =>
      obtain ⟨next, answer, rest, steps, goesOn, -⟩ := exists_of_run_cons runs
      obtain ⟨first, remaining⟩ := List.forall_mem_cons.mp others
      obtain ⟨patched, fewer⟩ := reachable.confined_step single first steps
      have options : next.options = editor.options := by
        have alone : editor.run [call] = .ok (next, [answer]) := run_cons steps rfl
        exact (reachable.fixed_of_run alone).2
      obtain ⟨breaks, lines⟩ := inductionHypothesis (.stepped reachable steps)
        (options ▸ single) remaining goesOn
      exact ⟨breaks.trans patched.breaks_sublist, Nat.le_trans lines fewer⟩

/-! ## Pasting -/

/-- A text without breaks that fits is put at the caret. -/
theorem Shows.paste_unbroken (shows : editor.Shows draft) {text : String}
    (clean : Unbroken text.toList)
    (fits : editor.buffer.length + text.toList.length ≤ editor.buffer.capacity) :
    ∃ next, editor.paste text = .ok (next, .ok true) ∧
      next.Shows (draft.typed text.toList) := by
  have pieces := segments_of_unbroken clean
  have takes : draft.Takes editor.options editor.buffer.capacity text.toList := by
    refine ⟨?_, ?_⟩
    · rw [pieces]
      intro more
      exact absurd more (Nat.lt_irrefl 1)
    · rw [pieces, ← shows.length]
      simpa [joinedLength] using fits
  obtain ⟨next, steps, makes⟩ := shows.step_paste_of_takes takes
  rw [pieces] at makes
  refine ⟨next, ?_, makes.toShows⟩
  obtain ⟨pair, pastes, same⟩ := exists_of_bind steps
  obtain ⟨rfl, taken⟩ := Prod.mk.inj (Except.ok.inj same)
  rw [pastes]
  exact congrArg (fun result => Except.ok (pair.1, result)) (Answer.pasted.inj taken)

/-- The text with a run put at an offset. -/
theorem Shows.toList_typed (shows : editor.Shows draft) {run : List Char}
    (typed : next.Shows (draft.typed run)) :
    next.buffer.toList = editor.buffer.toList.take editor.cursor.caret ++ run ++
      editor.buffer.toList.drop editor.cursor.caret := by
  rw [typed.text, shows.text, shows.caret, draft.text_eq, ← draft.length_leading, List.take_left,
    List.drop_left, Draft.text_eq, Draft.leading_typed, Draft.trailing_typed]

/-- However a text without breaks is pasted, it is taken if it fits. -/
theorem Shows.takes_unbroken (shows : editor.Shows draft) {text : String}
    (clean : Unbroken text.toList)
    (fits : editor.buffer.length + text.toList.length ≤ editor.buffer.capacity) {call : Call κ}
    (pastes : call.Pastes text) :
    ∃ next answer, editor.step call = .ok (next, answer) ∧ ¬ answer.Refuses ∧
      next.Shows (draft.typed text.toList) := by
  cases call with
  | paste pasted =>
      obtain rfl : pasted = text := pastes
      obtain ⟨next, taken, typed⟩ := shows.paste_unbroken clean fits
      refine ⟨next, .pasted (.ok true), ?_, Bool.noConfusion, typed⟩
      rw [Editor.step, taken]
      rfl
  | pasteFrom clipboard =>
      obtain ⟨next, taken, typed⟩ := shows.paste_unbroken clean fits
      refine ⟨next, .pasted (.ok true), ?_, Bool.noConfusion, typed⟩
      rw [Editor.step, pasteFrom, show clipboard.read = .ok text from pastes]
      change (editor.paste text >>= _) = _
      rw [taken]
      rfl
  | onPaste pasted =>
      obtain rfl : pasted = text := pastes
      obtain ⟨next, taken, typed⟩ := (shows.withTypedCr false).paste_unbroken clean fits
      refine ⟨next, .pasted (.ok true), ?_, Bool.noConfusion, typed⟩
      rw [Editor.step, onPaste, show editor.forgetTypedCr.paste pasted = _ from taken]
      rfl
  | handle message =>
      cases message with
      | paste pasted =>
          obtain rfl : pasted = text := pastes
          obtain ⟨next, taken, typed⟩ := shows.paste_unbroken clean fits
          refine ⟨next, .applied true, ?_, Bool.noConfusion, typed⟩
          rw [Editor.step, handle, taken]
          rfl
      | _ => exact absurd pastes id
  | _ => exact absurd pastes id

/-! ## Editors without further lines -/

/-- Inputs of every kind leave the lines of an editor at most as they are: each puts in a run
without breaks at most, and so none is opened along any run.  A paste without breaks is taken
as long as there is room. -/
structure OpensNoLine (editor : Editor κ) : Prop where
  step : ∀ call next answer, call.isLoading = false →
    editor.step call = .ok (next, answer) →
      Patched editor.buffer.toList next.buffer.toList ∧ next.lines.size ≤ editor.lines.size
  run : ∀ calls last answers, (∀ call ∈ calls, call.isLoading = false) →
    editor.run calls = .ok (last, answers) →
      (last.buffer.toList.filter isBreak).Sublist (editor.buffer.toList.filter isBreak) ∧
        last.lines.size ≤ editor.lines.size
  paste : ∀ text : String, Unbroken text.toList →
    editor.buffer.length + text.toList.length ≤ editor.buffer.capacity →
      ∀ call : Call κ, call.Pastes text →
        ∃ next answer, editor.step call = .ok (next, answer) ∧ ¬ answer.Refuses ∧
          next.buffer.toList = editor.buffer.toList.take editor.cursor.caret ++ text.toList ++
            editor.buffer.toList.drop editor.cursor.caret

/-- Whatever has been typed, pasted or loaded before, where lines cannot be opened there are
never more of them until the next load. -/
theorem single_line_stays (reachable : editor.Reachable)
    (single : editor.options.multiline = false) : editor.OpensNoLine where
  step _ _ _ other steps := reachable.confined_step single other steps
  run _ _ _ others runs := reachable.confined_run single others runs
  paste := by
    intro text clean fits call pastes
    obtain ⟨draft, shows⟩ := reachable.shows
    obtain ⟨next, answer, steps, taken, typed⟩ := shows.takes_unbroken clean fits pastes
    exact ⟨next, answer, steps, taken, shows.toList_typed typed⟩

/-- A new editor of a single line. -/
def oneLine : Editor Float32 :=
  ofSettings { Settings.standard with multiline := false }
    (GlyphMetrics.monospace GlyphMetrics.standardCell)

theorem reachable_oneLine : oneLine.Reachable := by
  have creates :
      create { Settings.standard with multiline := false }
        (GlyphMetrics.monospace GlyphMetrics.standardCell) = .ok oneLine := rfl
  exact .created (by decide) creates

/-- A document of two lines, which only a load can bring. -/
theorem single_line_stays_oneLine :
    ∃ editor answers,
      oneLine.run [.loadDocument "ab\ncd", .onCharacter '\r'] = .ok (editor, answers) ∧
        editor.options.multiline = false ∧ editor.OpensNoLine := by
  obtain ⟨editor, answers, runs, reachable⟩ := reachable_oneLine.of_run
    [.loadDocument "ab\ncd", .onCharacter '\r'] (by decide +kernel)
  have single : editor.options.multiline = false := by
    rw [(reachable_oneLine.fixed_of_run runs).2]
    rfl
  exact ⟨editor, answers, runs, single, single_line_stays reachable single⟩

end Editor

end EditorCore
