import EditorCore.Proofs.Manuscript
import EditorCore.Proofs.Transition

/-!
Contract: edits, loads and motions leave an editor alone or settle it with a draft.

Owns:
- that every motion aims at some line;
- `Editor.Settles`, an outcome that is the editor itself or settled with a draft of a kind,
  and for each request which drafts these can be;
- `Request.dress`, the looks after a request, which no edit, load or motion changes.

Does not own: whether a request is taken or turned down.
-/

namespace EditorCore

variable {κ : Type}

/-! ## Where motions aim -/

namespace Draft

variable {draft : Draft}

theorem onward_line_lt (draft : Draft) : draft.onward.line < draft.lines.length := by
  unfold onward
  split
  · assumption
  · exact draft.row_lt_length_lines

theorem backward_line_lt (draft : Draft) : draft.backward.line < draft.lines.length := by
  have inside := draft.row_lt_length_lines
  unfold backward
  split
  · exact Nat.lt_of_le_of_lt (Nat.sub_le _ _) inside
  · exact inside

/-- A motion aims at one of the lines. -/
theorem target_line_lt {step : List Char → Nat} {desired : Option Nat} {motion : Motion}
    {position : Position} (aims : draft.target step desired motion = some position) :
    position.line < draft.lines.length := by
  have inside := draft.row_lt_length_lines
  have onLine : ∀ {here there : Position} {stays : Prop} [Decidable stays],
      here.line = draft.row → there.line < draft.lines.length →
        (if stays then here else there).line < draft.lines.length := by
    intro here there stays _ same elsewhere
    split
    · exact same ▸ inside
    · exact elsewhere
  cases motion with
  | left | wordLeft =>
      obtain rfl := Option.some.inj aims
      exact onLine rfl draft.backward_line_lt
  | right | wordRight =>
      obtain rfl := Option.some.inj aims
      exact onLine rfl draft.onward_line_lt
  | up =>
      obtain ⟨-, same⟩ := Option.ite_none_right_eq_some.mp aims
      obtain rfl := Option.some.inj same
      exact Nat.lt_of_le_of_lt (Nat.sub_le _ _) inside
  | down =>
      obtain ⟨more, same⟩ := Option.ite_none_right_eq_some.mp aims
      obtain rfl := Option.some.inj same
      exact more
  | lineStart | lineEnd =>
      obtain rfl := Option.some.inj aims
      exact inside
  | documentStart =>
      obtain rfl := Option.some.inj aims
      exact Nat.zero_lt_of_lt inside
  | documentEnd =>
      obtain rfl := Option.some.inj aims
      exact Nat.sub_lt (Nat.zero_lt_of_lt inside) Nat.one_pos

end Draft

/-! ## Outcomes -/

namespace Editor

variable [Coordinate κ] {editor : Editor κ} {draft : Draft} {kind : Draft → Prop}

/-- All that an outcome can leave is the editor itself, or the editor settled with a draft of
some kind.  A load has chosen how to save. -/
def Settles (editor : Editor κ) (kind : Draft → Prop) (outcome : Checked (Editor κ)) : Prop :=
  ∀ next, outcome = .ok next →
    next = editor ∨ ∃ ending desired target, kind target ∧
      Settled { editor with ending } next desired target

theorem settles_self (editor : Editor κ) : editor.Settles kind (.ok editor) := by
  rintro _ ⟨⟩
  exact .inl rfl

/-- A call that ends as a verdict says settles on a draft that the verdict accepts. -/
theorem Ends.settles {α : Type} {yes no : α} {full : Nat → α} {verdict : Verdict Draft}
    {outcome : Checked (Editor κ × α)} (ends : editor.Ends yes no full verdict outcome)
    (kinds : ∀ target, verdict = .accepted target → kind target) :
    editor.Settles kind (outcome.map Prod.fst) := by
  cases verdict with
  | accepted target =>
      obtain ⟨last, rfl, settled⟩ := ends
      rintro _ ⟨⟩
      exact .inr ⟨editor.ending, none, target, kinds target rfl, settled⟩
  | declined =>
      subst ends
      exact editor.settles_self
  | full required =>
      subst ends
      unfold ifWord
      split
      · exact editor.settles_self
      · intro next goes
        exact absurd goes nofun

/-- A motion that arrives settles where it goes. -/
theorem Arrives.settles {desired : Option Nat} {position : Position}
    {outcome : Checked (Editor κ)} (arrives : editor.Arrives draft desired position outcome)
    (goes : kind (draft.goTo position)) : editor.Settles kind outcome := by
  obtain ⟨last, rfl, settled⟩ := arrives
  rintro _ ⟨⟩
  exact .inr ⟨editor.ending, desired, _, goes, settled⟩

/-! ## Requests -/

/-- An edit settles with a draft that its verdict accepts. -/
theorem Shows.settles_edit (shows : editor.Shows draft) (edit : Edit)
    (kinds : ∀ target, (editor.manuscript draft).verdict edit = .accepted target → kind target) :
    editor.Settles kind (editor.perform (.edit edit)) := by
  cases edit with
  | character char =>
      rw [perform_character, Editor.insertChar]
      rw [Manuscript.verdict] at kinds
      by_cases ends : isBreak char = true
      · rw [if_pos ends] at kinds ⊢
        exact Ends.settles shows.insertLine kinds
      · have clean : Unbroken [char] := unbroken_singleton.mpr (Bool.eq_false_iff.mpr ends)
        rw [if_neg ends] at kinds ⊢
        exact Ends.settles (shows.typeRun clean) kinds
  | newline =>
      rw [perform_newline]
      exact Ends.settles shows.insertLine kinds
  | tab =>
      rw [perform_tab]
      exact Ends.settles shows.indent kinds
  | backspace =>
      rw [perform_backspace, shows.deleteChar_eq]
      exact Ends.settles shows.outdent kinds
  | outdent =>
      rw [perform_outdent]
      exact Ends.settles shows.outdent kinds
  | paste text =>
      rw [perform_paste]
      by_cases empty : text.toList = []
      · rw [Editor.paste, if_pos empty]
        exact editor.settles_self
      · exact Ends.settles (shows.paste empty) kinds

theorem Shows.settles_load (shows : editor.Shows draft) (text : String)
    (loads : kind (Draft.blank.pasted (segments text.toList))) :
    editor.Settles kind (editor.perform (.load text)) := by
  rw [Editor.perform]
  by_cases fits : joinedLength (segments text.toList) ≤ editor.buffer.capacity
  · obtain ⟨last, taken, settled⟩ := shows.loadDocument fits
    rw [taken]
    rintro _ ⟨⟩
    exact .inr ⟨_, none, _, loads, settled⟩
  · rw [loadDocument_of_full (Nat.lt_of_not_le fits)]
    exact editor.settles_self

section Motions

variable (shows : editor.Shows draft)
  (goes : ∀ position : Position, position.line < draft.lines.length → kind (draft.goTo position))

include shows goes

theorem Shows.settles_go (motion : Motion) :
    editor.Settles kind (editor.perform (.go motion)) := by
  rw [Editor.perform]
  have moves := shows.move motion
  cases aims : draft.target editor.wordStep editor.cursor.desiredColumn motion with
  | some position =>
      rw [aims] at moves
      exact Arrives.settles moves (goes position (Draft.target_line_lt aims))
  | none =>
      rw [aims] at moves
      rw [show editor.move motion = .ok editor from moves]
      exact editor.settles_self

theorem Shows.settles_place (position : Position) :
    editor.Settles kind (editor.perform (.place position)) := by
  have some := draft.row_lt_length_lines
  exact (shows.moveToPosition position).settles
    (goes _ (Nat.lt_of_le_of_lt (Nat.min_le_right _ _) (by omega)))

theorem Shows.settles_point (x y : κ) : editor.Settles kind (editor.perform (.point x y)) := by
  have some := draft.row_lt_length_lines
  exact (shows.moveToPoint x y).settles
    (goes _ (EditorCore.Editor.lineAtY_lt (by omega) _ y))

end Motions

/-! ## Looks -/

end Editor

/-- What lines are made by after a request.  Only moving the widget and choosing keywords
change it. -/
def Request.dress [Coordinate κ] : Request κ → Look κ → Look κ
  | .arrange x y, look =>
      let margin := look.options.margin
      { look with layout := Editor.layoutAt look.options (x + margin) (y + margin) }
  | .colour words, look => { look with keywords := KeywordSet.ofList words }
  | _, look => look

namespace Editor

variable [Coordinate κ] {editor next : Editor κ} {draft : Draft}

theorem Settles.look_eq (settles : editor.Settles (fun _ => True) (.ok next)) :
    next.look = editor.look := by
  rcases settles next rfl with rfl | ⟨ending, desired, target, -, settled⟩
  · rfl
  · exact congrArg Surroundings.look settled.around

/-- A request changes how lines are made only as it dresses them. -/
theorem Shows.look_of_perform (shows : editor.Shows draft) {request : Request κ}
    (performs : editor.perform request = .ok next) : next.look = request.dress editor.look := by
  cases request with
  | nothing => exact Except.ok.inj performs ▸ rfl
  | edit edit => exact (performs ▸ shows.settles_edit edit fun _ _ => trivial).look_eq
  | load text => exact (performs ▸ shows.settles_load text trivial).look_eq
  | go motion => exact (performs ▸ shows.settles_go (fun _ _ => trivial) motion).look_eq
  | place position => exact (performs ▸ shows.settles_place (fun _ _ => trivial) position).look_eq
  | point x y => exact (performs ▸ shows.settles_point (fun _ _ => trivial) x y).look_eq
  | arrange x y => exact Except.ok.inj performs ▸ rfl
  | colour words =>
      obtain ⟨last, colours, -, around⟩ := shows.setKeywords words
      obtain rfl := Except.ok.inj (colours.symm.trans performs)
      exact congrArg Surroundings.look around
  | frame => exact Except.ok.inj performs ▸ rfl
  | fetch => exact Except.ok.inj performs ▸ rfl

/-- A call changes what lines are made by as its request does. -/
theorem Shows.look_of_step (shows : editor.Shows draft) {call : Call κ} {answer : Answer}
    (steps : editor.step call = .ok (next, answer)) :
    next.look = (call.request editor.afterTypedCr).dress editor.look :=
  (shows.heard call).look_of_perform (step_eq_ok steps)

end Editor

end EditorCore
