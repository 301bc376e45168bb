import EditorCore.Proofs.Acceptance
import EditorCore.Proofs.Indentation

/-!
Contract: Enter repeats the depth of a line, and goes on repeating it.

Owns:
- `PlainText.depth`, the indent units on the left of a position;
- what any number of Enters in a row make of the line of the caret;
- that the new line is as deep as the old one was on the left of the caret, and that
  where the caret was in the indentation it is not deeper than the old one as a whole.

Does not own: whether Enter is accepted.
-/

namespace EditorCore

variable {κ : Type}

/-- The units that the blanks on the left of the position hold. -/
def PlainText.depth (options : Options κ) (plain : PlainText) : Nat :=
  indentUnits options.tabSize (plain.left.takeWhile isBlank)

namespace Draft

variable {options : Options κ} {draft target : Draft} {depth count : Nat}

theorem level_eq_depth (auto : options.autoIndent = true) :
    draft.level options = draft.plain.depth options := by
  rw [level, if_pos auto, PlainText.depth, left_plain]

/-- The line of the caret after Enters: so many rows further down, with so many units
before what was on the right of the caret. -/
structure EnteredFrom (options : Options κ) (depth count : Nat) (draft target : Draft) :
    Prop where
  before : target.before = indentation options depth
  after : target.after = draft.after
  row : target.row = draft.row + count

theorem enteredFrom_entered (options : Options κ) (draft : Draft) :
    EnteredFrom options (draft.level options) 1 draft (draft.entered options) where
  before := List.nil_append _
  after := rfl
  row := draft.row_opened

/-- Units on the left of the caret are repeated as they are. -/
theorem EnteredFrom.level_eq (entered : EnteredFrom options depth count draft target)
    (aligned : options.Aligned) (auto : options.autoIndent = true) :
    target.level options = depth := by
  rw [level, if_pos auto, entered.before, takeWhile_indentation, indentUnits_indentation aligned]

theorem EnteredFrom.trans {more : Nat} {last : Draft}
    (entered : EnteredFrom options depth count draft target)
    (again : EnteredFrom options depth more target last) :
    EnteredFrom options depth (count + more) draft last where
  before := again.before
  after := again.after.trans entered.after
  row := by rw [again.row, entered.row, Nat.add_assoc]

theorem EnteredFrom.takeWhile_current (entered : EnteredFrom options depth count draft target) :
    target.current.takeWhile isBlank =
      indentation options depth ++ draft.after.takeWhile isBlank := by
  rw [current, entered.before, entered.after, takeWhile_indentation_append]

/-! ## Carets in the indentation -/

section Inside

variable (inside : draft.column ≤ leadingBlanks draft.current)

include inside

theorem takeWhile_before_of_inside : draft.before.takeWhile isBlank = draft.before := by
  rw [← takeWhile_before, Nat.min_eq_left inside]
  exact List.take_left

/-- The leading run goes on across the caret. -/
theorem takeWhile_current_of_inside :
    draft.current.takeWhile isBlank = draft.before ++ draft.after.takeWhile isBlank := by
  have whole := congrArg List.length (takeWhile_before_of_inside inside)
  rw [current, List.takeWhile_append, if_pos whole]

/-- The repeated units and what follows them hold no more units than the old line. -/
theorem depth_add_le_of_inside :
    draft.plain.depth options + indentUnits options.tabSize (draft.after.takeWhile isBlank) ≤
      indentUnits options.tabSize (draft.current.takeWhile isBlank) := by
  rw [PlainText.depth, left_plain, takeWhile_before_of_inside inside,
    takeWhile_current_of_inside inside]
  exact indentUnits_add_le _ _ _

/-- Repeated units of spaces are no wider than the spaces that they stand for. -/
theorem depth_mul_le_column (aligned : options.Aligned)
    (spaces : ∀ char ∈ draft.current.takeWhile isBlank, char = ' ')
    (wide : options.indentUnit ≠ .tab) :
    draft.plain.depth options * options.indentUnit.length ≤ draft.column := by
  rw [takeWhile_current_of_inside inside, List.forall_mem_append] at spaces
  have width : options.indentUnit.length = max options.tabSize 1 := by
    cases unit : options.indentUnit with
    | tab => exact absurd unit wide
    | spaces width => exact aligned width unit
  rw [PlainText.depth, left_plain, takeWhile_before_of_inside inside, width]
  exact indentUnits_mul_le_length options.tabSize spaces.1

end Inside

end Draft

namespace Editor

/-- The caret is at or before the end of its line's indentation. -/
def InIndentation (editor : Editor κ) : Prop :=
  ∃ line, editor.lines.get? editor.cursor.line = some line ∧
    editor.cursor.caret ≤ line.indentEnd

/-- The line of the caret repeats the units that were on the left of the caret before.  If
the caret was in the indentation, the line is not deeper than the old one was, nor, where
all indentation is made of spaces, wider indented. -/
structure KeepsDepth (editor last : Editor κ) (plain lower : PlainText) : Prop where
  column : lower.column = plain.depth editor.options * editor.options.indentUnit.length
  left : indentUnits editor.options.tabSize lower.left = plain.depth editor.options
  level : last.cursor.indentLevel =
    plain.depth editor.options +
      indentUnits editor.options.tabSize (plain.right.takeWhile isBlank)
  bounded : editor.InIndentation → last.cursor.indentLevel ≤ editor.cursor.indentLevel
  narrow : editor.InIndentation → (∀ char ∈ plain.current.takeWhile isBlank, char = ' ') →
    editor.options.indentUnit ≠ .tab →
      leadingBlanks lower.current ≤ leadingBlanks plain.current

section

variable [Coordinate κ] {editor last : Editor κ} {draft target : Draft} {depth : Nat}

theorem Represents.inside_of_inIndentation (represents : editor.Represents draft)
    (inIndentation : editor.InIndentation) : draft.column ≤ leadingBlanks draft.current := by
  obtain ⟨line, found, inside⟩ := inIndentation
  obtain rfl := Option.some.inj (represents.get?_cursor.symm.trans found)
  rw [represents.caret, Draft.offset] at inside
  exact Nat.le_of_add_le_add_left inside

/-- From a line that has just been entered, further Enters repeat its units. -/
theorem Shows.run_insertLine (count : Nat) :
    ∀ {editor : Editor κ} {draft : Draft}, editor.Shows draft → editor.options.Aligned →
      editor.options.autoIndent = true →
      draft.before = Draft.indentation editor.options depth →
      editor.run (List.replicate count .insertLine) =
        .ok (last, List.replicate count (.applied true)) →
      ∃ target, editor.Makes last target ∧
        Draft.EnteredFrom editor.options depth count draft target := by
  induction count with
  | zero =>
      intro editor draft shows _ _ before runs
      obtain ⟨rfl, -⟩ := Prod.mk.inj (Except.ok.inj runs)
      exact ⟨draft, ⟨shows, rfl, rfl⟩, before, rfl, rfl⟩
  | succ count inductionHypothesis =>
      intro editor draft shows aligned auto before runs
      have start : Draft.EnteredFrom editor.options depth 0 draft draft := ⟨before, rfl, rfl⟩
      obtain ⟨next, answer, rest, steps, goesOn, answers⟩ := exists_of_run_cons runs
      obtain ⟨rfl, rfl⟩ := List.cons.inj answers
      have makes := shows.makes_insertLine steps
      have entered := Draft.enteredFrom_entered editor.options draft
      rw [start.level_eq aligned auto] at entered
      rw [← makes.options] at aligned auto
      obtain ⟨target, again, enteredAgain⟩ := inductionHypothesis makes.toShows aligned auto
        (by rw [makes.options]; exact entered.before) goesOn
      rw [makes.options] at enteredAgain
      refine ⟨target, makes.trans again, ?_⟩
      rw [Nat.add_comm count]
      exact entered.trans enteredAgain

theorem Shows.keepsDepth (shows : editor.Shows draft) (aligned : editor.options.Aligned)
    (makes : editor.Makes last target) {count : Nat}
    (entered : Draft.EnteredFrom editor.options (draft.plain.depth editor.options) count
      draft target) :
    editor.KeepsDepth last draft.plain target.plain := by
  have level : last.cursor.indentLevel = draft.plain.depth editor.options +
      indentUnits editor.options.tabSize (draft.plain.right.takeWhile isBlank) := by
    rw [makes.indentLevel, makes.options, entered.takeWhile_current,
      Draft.indentUnits_indentation_append aligned, Draft.right_plain]
  refine ⟨?_, ?_, level, ?_, ?_⟩
  · rw [Draft.column_plain, Draft.column, entered.before, Draft.length_indentation]
  · rw [Draft.left_plain, entered.before, Draft.indentUnits_indentation aligned]
  · intro inIndentation
    rw [level, shows.indentLevel, Draft.right_plain]
    exact Draft.depth_add_le_of_inside (shows.inside_of_inIndentation inIndentation)
  · intro inIndentation spaces wide
    have inside := shows.inside_of_inIndentation inIndentation
    rw [Draft.current_plain] at spaces
    have narrow := Draft.depth_mul_le_column inside aligned spaces wide
    rw [Draft.current_plain, Draft.current_plain, leadingBlanks, leadingBlanks,
      entered.takeWhile_current, Draft.takeWhile_current_of_inside inside,
      List.length_append, List.length_append, Draft.length_indentation]
    exact Nat.add_le_add_right narrow _

/-- With auto-indent, accepted Enters in a row, however many, repeat the whole units on the
left of the caret, and from within an indentation they lead to no deeper line. -/
theorem enter_keeps_depth (reachable : editor.Reachable)
    (auto : editor.options.autoIndent = true) :
    ∃ plain, editor.Reads plain ∧ ∀ count last,
      editor.run (List.replicate (count + 1) .insertLine) =
        .ok (last, List.replicate (count + 1) (.applied true)) →
      ∃ lower, last.Reads lower ∧ lower.row = plain.row + (count + 1) ∧
        editor.KeepsDepth last plain lower := by
  obtain ⟨draft, shows⟩ := reachable.shows
  have aligned := reachable.aligned
  refine ⟨draft.plain, shows.reads, ?_⟩
  intro count last runs
  obtain ⟨next, answer, rest, steps, goesOn, answers⟩ := exists_of_run_cons runs
  obtain ⟨rfl, rfl⟩ := List.cons.inj answers
  -- The first Enter makes whole units of the blanks, and the others keep them.
  have makes := shows.makes_insertLine steps
  have entered := Draft.enteredFrom_entered editor.options draft
  rw [Draft.level_eq_depth auto] at entered
  obtain ⟨target, again, enteredAgain⟩ := Shows.run_insertLine count makes.toShows
    (by rw [makes.options]; exact aligned) (by rw [makes.options]; exact auto)
    (by rw [makes.options]; exact entered.before) goesOn
  rw [makes.options] at enteredAgain
  have whole := entered.trans enteredAgain
  refine ⟨target.plain, again.reads, ?_, shows.keepsDepth aligned (makes.trans again) whole⟩
  rw [Draft.row_plain, Draft.row_plain, whole.row, Nat.add_comm 1]

end

/-- Two Enters from between the spaces of a line: one unit and a partial one before the
caret, and a space after it. -/
theorem enter_keeps_depth_standard :
    ∃ (editor last : Editor Float32) (answers : List Answer) (plain lower : PlainText),
      standard.run [.loadDocument "    x", .moveToPosition { line := 0, column := 3 }] =
        .ok (editor, answers) ∧
      editor.run [.insertLine, .insertLine] = .ok (last, [.applied true, .applied true]) ∧
      editor.Reads plain ∧ last.Reads lower ∧ lower.row = plain.row + 2 ∧
      editor.KeepsDepth last plain lower := by
  obtain ⟨editor, answers, runs, reachable, auto, twice⟩ := reachable_standard.of_run_to
    [.loadDocument "    x", .moveToPosition { line := 0, column := 3 }]
    (fun editor => editor.options.autoIndent = true ∧
      (editor.run [.insertLine, .insertLine]).toOption.any
        (fun ends => decide (ends.2 = [.applied true, .applied true])) = true)
    (by decide +kernel)
  obtain ⟨last, enters⟩ := exists_of_result twice
  obtain ⟨plain, reads, deepens⟩ := enter_keeps_depth reachable auto
  obtain ⟨lower, readsLower, row, keeps⟩ := deepens 1 last enters
  exact ⟨editor, last, answers, plain, lower, runs, enters, reads, readsLower, row, keeps⟩

end Editor

end EditorCore
