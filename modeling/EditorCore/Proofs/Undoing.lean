import EditorCore.Proofs.Acceptance
import EditorCore.Proofs.Indentation
import EditorCore.Proofs.Typing

/-!
Contract: Backspace takes back what typing and Enter have put.

Owns:
- steps back on drafts: over a typed character that is no blank, out of a run of units
  one unit at a time, and over a line's start;
- `Editor.Recovers`, an editor with the document and the indent level of another;
- that one Backspace takes back a typed character and one more than there are repeated
  units takes back Enter.

Does not own: which edits are accepted.
-/

namespace EditorCore

variable {κ : Type}

/-- Nothing that ends the run of blanks before it is counted with it. -/
theorem leadingBlanks_append_le {char : Char} (solid : isBlank char = false)
    (first later : List Char) : leadingBlanks (first ++ char :: later) ≤ first.length := by
  rw [leadingBlanks, List.takeWhile_append]
  split
  · rw [List.takeWhile_cons, solid]
    simp
  · exact (List.takeWhile_prefix isBlank).length_le

theorem leadingBlanks_eq_zero {chars : List Char}
    (solid : ∀ char, chars.head? = some char → isBlank char = false) : leadingBlanks chars = 0 := by
  cases chars with
  | nil => rfl
  | cons char rest =>
      rw [leadingBlanks, List.takeWhile_cons, solid char rfl]
      rfl

namespace Draft

variable {options : Options κ} {draft : Draft}

/-! ## Steps back -/

/-- Shortening takes away what has been typed. -/
theorem shortened_typed (draft : Draft) (run : List Char) :
    (draft.typed run).shortened run.length = draft := by
  have reach : (draft.before ++ run).length - run.length = draft.before.length := by
    rw [List.length_append, Nat.add_sub_cancel]
  rw [shortened, column, typed, reach, List.take_left]

/-- Backspace takes back a character that is no blank. -/
theorem stepBack_typed {char : Char} (solid : isBlank char = false) :
    (draft.typed [char]).stepBack options = .accepted draft := by
  have column : (draft.typed [char]).column = draft.column + 1 := List.length_append
  -- The leading run ends before the typed character, and the caret is behind it.
  have inner : ¬ (draft.typed [char]).AtIndentBoundary := by
    have blanks : leadingBlanks (draft.typed [char]).current ≤ draft.column := by
      rw [current, typed, List.append_assoc]
      exact leadingBlanks_append_le solid draft.before draft.after
    rintro ⟨-, boundary⟩
    omega
  rw [stepBack, if_neg inner, eraseChar, if_pos (by omega)]
  exact congrArg Verdict.accepted (draft.shortened_typed [char])

/-- The caret stands at the end of the line's indentation, which may be empty. -/
structure AtIndentEnd (draft : Draft) : Prop where
  blank : ∀ char ∈ draft.before, isBlank char = true
  solid : leadingBlanks draft.after = 0

theorem atIndentEnd_iff : draft.AtIndentEnd ↔ draft.column = leadingBlanks draft.current := by
  rw [leadingBlanks, current]
  constructor
  · intro atEnd
    have nothing : (draft.after.takeWhile isBlank).length = 0 := atEnd.solid
    rw [List.takeWhile_append_of_pos atEnd.blank, List.length_append, nothing]
    rfl
  · intro reach
    rw [List.takeWhile_append] at reach
    split at reach
    · rename_i whole
      rw [List.length_append] at reach
      refine ⟨?_, Nat.add_left_cancel (reach.symm.trans (Nat.add_zero _).symm)⟩
      rw [← (List.takeWhile_prefix (l := draft.before) isBlank).eq_of_length whole]
      exact List.all_eq_true.mp List.all_takeWhile
    · rename_i partly
      exact absurd reach.symm partly

/-- The indentation ends at the caret in whole units, as far as it ends in spaces. -/
structure AtUnitEnd (options : Options κ) (draft : Draft) : Prop extends AtIndentEnd draft where
  units : options.indentUnit.length ∣ trailingSpaces draft.before

theorem atUnitEnd_opened (solid : ∀ char, draft.after.head? = some char → isBlank char = false) :
    draft.opened.AtUnitEnd options where
  blank := List.forall_mem_nil _
  solid := leadingBlanks_eq_zero solid
  units := Nat.dvd_zero _

/-- A tab ends a run of spaces, and a unit of spaces makes it longer by one unit. -/
theorem dvd_trailingSpaces_append {unit : IndentUnit} {run : List Char}
    (whole : unit.length ∣ trailingSpaces run) :
    unit.length ∣ trailingSpaces (run ++ unit.chars) := by
  cases unit with
  | tab => exact Nat.one_dvd _
  | spaces width =>
      rw [IndentUnit.chars, trailingSpaces_append_replicate]
      exact Nat.dvd_add (Nat.dvd_refl _) whole

theorem AtUnitEnd.typed (atEnd : draft.AtUnitEnd options) (count : Nat) :
    (draft.typed (indentation options count)).AtUnitEnd options := by
  induction count with
  | zero => simpa [indentation] using atEnd
  | succ count inductionHypothesis =>
      rw [indentation_succ, ← typed_typed]
      refine ⟨⟨?_, atEnd.solid⟩, dvd_trailingSpaces_append inductionHypothesis.units⟩
      refine List.forall_mem_append.mpr ⟨inductionHypothesis.blank, ?_⟩
      rw [IndentUnit.chars_eq_replicate]
      intro char member
      rw [List.eq_of_mem_replicate member]
      exact options.indentUnit.isBlank_blank

/-- Behind whole units, a step back is as wide as a unit. -/
theorem outdentWidth_append {unit : IndentUnit} {run : List Char}
    (whole : unit.length ∣ trailingSpaces (run ++ unit.chars)) :
    outdentWidth (run ++ unit.chars) unit.length = unit.length := by
  have positive := unit.length_pos
  have some : run ++ unit.chars ≠ [] := by
    rw [← List.length_pos_iff, List.length_append, IndentUnit.length_chars]
    exact Nat.lt_of_lt_of_le positive (Nat.le_add_left _ _)
  rw [outdentWidth, if_neg (not_or.mpr ⟨some, Nat.ne_of_gt positive⟩)]
  cases unit with
  | tab => simp [IndentUnit.length, Nat.mod_one]
  | spaces width =>
      have some : trailingSpaces (run ++ (IndentUnit.spaces width).chars) ≠ 0 := by
        rw [IndentUnit.chars, trailingSpaces_append_replicate]
        omega
      rw [if_neg some, if_pos (Nat.mod_eq_zero_of_dvd whole)]

/-- A step back out of units that have been put takes off the last of them. -/
theorem AtUnitEnd.stepBack_typed (atEnd : draft.AtUnitEnd options) (count : Nat) :
    (draft.typed (indentation options (count + 1))).stepBack options =
      .accepted (draft.typed (indentation options count)) := by
  have deeper := atEnd.typed (count + 1)
  have boundary : (draft.typed (indentation options (count + 1))).AtIndentBoundary := by
    refine ⟨?_, atIndentEnd_iff.mp deeper.toAtIndentEnd⟩
    have unit := Nat.mul_pos (Nat.succ_pos count) options.indentUnit.length_pos
    rw [column, Draft.typed, List.length_append, length_indentation]
    exact Nat.lt_of_lt_of_le unit (Nat.le_add_left _ _)
  have units := deeper.units
  rw [indentation_succ, ← typed_typed] at boundary units ⊢
  have width := outdentWidth_append units
  rw [stepBack, if_pos boundary]
  change Verdict.accepted (shortened _ (outdentWidth
    ((draft.typed (indentation options count)).before ++ options.indentUnit.chars) _)) = _
  rw [width, ← IndentUnit.length_chars, shortened_typed]

/-- At the start of a line, a step back joins it onto the line that it was cut off from. -/
theorem stepBack_opened : draft.opened.stepBack options = .accepted draft := by
  have start : ¬ 0 < draft.opened.column := Nat.lt_irrefl 0
  have split : draft.opened.above = draft.above ++ [draft.before] := rfl
  rw [stepBack, if_neg fun boundary => start boundary.1, eraseChar, if_neg start, folded?_eq split]
  rfl

end Draft

namespace Editor

variable [Coordinate κ]

/-- An editor has the document of another, and the indent level of its line. -/
structure Recovers (editor last : Editor κ) : Prop extends SameDocument editor last where
  indentLevel : last.cursor.indentLevel = editor.cursor.indentLevel

section

variable {editor next last : Editor κ} {draft target : Draft}

/-- An editor with the first draft again is the first editor again, line by line. -/
theorem Shows.recovers (shows : editor.Shows draft) (makes : editor.Makes last draft) :
    editor.Recovers last where
  toSameDocument := shows.sameDocument makes.toShows makes.look.symm
  indentLevel := by rw [makes.indentLevel, makes.options, shows.indentLevel]

/-- Backspace goes through where the verdict accepts. -/
theorem Shows.step_deleteChar (shows : editor.Shows draft)
    (steps : draft.stepBack editor.options = .accepted target) :
    ∃ next, editor.step .deleteChar = .ok (next, .applied true) ∧ editor.Makes next target := by
  have accepted : (editor.manuscript draft).verdict .backspace = .accepted target := steps
  exact shows.step_of_accepted accepted

/-- A character that is no blank does not become part of the indentation, so that
Backspace takes off just this character. -/
theorem Shows.deleteChar_recovers (shows : editor.Shows draft) {char : Char}
    (solid : isBlank char = false) (ordinary : isBreak char = false)
    (types : editor.step (.insertChar char) = .ok (next, .applied true)) :
    ∃ last, next.step .deleteChar = .ok (last, .applied true) ∧ editor.Recovers last := by
  change editor.step (Edit.character char).call =
    .ok (next, (Edit.character char).acceptance) at types
  obtain ⟨target, accepted, makes⟩ := shows.makes_of_step types
  rw [Manuscript.verdict, if_neg (Bool.eq_false_iff.mp ordinary)] at accepted
  obtain ⟨-, rfl⟩ := Verdict.within_eq_accepted.mp accepted
  obtain ⟨last, steps, back⟩ := makes.toShows.step_deleteChar (Draft.stepBack_typed solid)
  exact ⟨last, steps, shows.recovers (makes.trans back)⟩

/-- Backspaces out of units that have been put take off one of them each. -/
theorem Shows.run_deleteChar (left count : Nat) :
    ∀ {editor : Editor κ}, draft.AtUnitEnd editor.options →
      editor.Shows (draft.typed (Draft.indentation editor.options (left + count))) →
      ∃ last, editor.run (List.replicate count .deleteChar) =
          .ok (last, List.replicate count (.applied true)) ∧
        editor.Makes last (draft.typed (Draft.indentation editor.options left)) := by
  induction count with
  | zero =>
      intro editor _ shows
      exact ⟨editor, rfl, shows, rfl, rfl⟩
  | succ count inductionHypothesis =>
      intro editor atEnd shows
      obtain ⟨next, steps, makes⟩ := shows.step_deleteChar (atEnd.stepBack_typed (left + count))
      have shallower := makes.toShows
      rw [← makes.options] at shallower atEnd
      obtain ⟨last, runs, again⟩ := inductionHypothesis atEnd shallower
      rw [makes.options] at again
      exact ⟨last, run_cons steps runs, makes.trans again⟩

/-- The Backspaces that take back an Enter that has repeated some units. -/
structure TakesBackEnter (editor next : Editor κ) (plain : PlainText) (level : Nat) : Prop where
  units : ∀ count ≤ level, ∃ partly,
    next.run (List.replicate count .deleteChar) =
        .ok (partly, List.replicate count (.applied true)) ∧
      partly.Reads (plain.replaced
        [plain.left, Draft.indentation editor.options (level - count) ++ plain.right]
        (plain.row + 1) ((level - count) * editor.options.indentUnit.length))
  whole : ∃ last,
    next.run (List.replicate (level + 1) .deleteChar) =
        .ok (last, List.replicate (level + 1) (.applied true)) ∧
      editor.Recovers last

/-- Backspaces take back an Enter, a unit at a time and then the break. -/
theorem Shows.takesBackEnter (shows : editor.Shows draft)
    (solid : ∀ char, draft.after.head? = some char → isBlank char = false)
    (enters : editor.step .insertLine = .ok (next, .applied true)) :
    editor.TakesBackEnter next draft.plain (draft.level editor.options) := by
  have makes := shows.makes_insertLine enters
  have options := makes.options
  have entered : next.Shows
      (draft.opened.typed (Draft.indentation next.options (draft.level editor.options))) := by
    rw [options]
    exact makes.toShows
  have atEnd : draft.opened.AtUnitEnd next.options := Draft.atUnitEnd_opened solid
  constructor
  · intro count inside
    rw [← Nat.sub_add_cancel inside] at entered
    obtain ⟨partly, runs, back⟩ := Shows.run_deleteChar _ count atEnd entered
    refine ⟨partly, runs, ?_⟩
    have reads := back.reads
    rw [options, Draft.plain_opened_typed, Draft.length_indentation] at reads
    rw [Draft.left_plain, Draft.right_plain, Draft.row_plain]
    exact reads
  · rw [← Nat.zero_add (draft.level editor.options)] at entered
    obtain ⟨opened, runs, back⟩ := Shows.run_deleteChar 0 _ atEnd entered
    have bare : opened.Shows draft.opened := back.toShows
    obtain ⟨last, steps, joins⟩ := bare.step_deleteChar Draft.stepBack_opened
    refine ⟨last, ?_, shows.recovers ((makes.trans back).trans joins)⟩
    rw [List.replicate_succ', List.replicate_succ']
    exact run_append runs (run_cons steps rfl)

/-- Backspace takes back an accepted character that is neither a blank nor a break, and
as many Backspaces as Enter has repeated units and one more take back an accepted Enter
before anything but a blank. -/
theorem backspace_undoes_typing (reachable : editor.Reachable) :
    (∀ char next, isBlank char = false → isBreak char = false →
      editor.step (.insertChar char) = .ok (next, .applied true) →
      ∃ last, next.step .deleteChar = .ok (last, .applied true) ∧ editor.Recovers last) ∧
    ∃ plain, editor.Reads plain ∧
      ((∀ char, plain.right.head? = some char → isBlank char = false) →
        ∀ next, editor.step .insertLine = .ok (next, .applied true) →
          editor.TakesBackEnter next plain (plain.level editor.options)) := by
  obtain ⟨draft, shows⟩ := reachable.shows
  refine ⟨fun char next solid ordinary => shows.deleteChar_recovers solid ordinary,
    draft.plain, shows.reads, ?_⟩
  rw [Draft.right_plain]
  intro solid next enters
  rw [Draft.level_plain]
  exact shows.takesBackEnter solid enters

end

/-- Enter between two spaces and a letter repeats the unit that the spaces are. -/
theorem backspace_undoes_typing_standard :
    ∃ (editor next last : Editor Float32) (answers : List Answer) (plain : PlainText),
      standard.run [.loadDocument "  x", .moveToPosition { line := 0, column := 2 }] =
        .ok (editor, answers) ∧
      editor.step .insertLine = .ok (next, .applied true) ∧ editor.Reads plain ∧
      editor.TakesBackEnter next plain (plain.level editor.options) ∧
      ∃ typed, editor.step (.insertChar 'y') = .ok (typed, .applied true) ∧
        typed.step .deleteChar = .ok (last, .applied true) ∧ editor.Recovers last := by
  obtain ⟨editor, answers, runs, reachable, line, place, enters, types⟩ :=
    reachable_standard.of_run_to
      [.loadDocument "  x", .moveToPosition { line := 0, column := 2 }]
      (fun editor => editor.lineChars? 0 = some [' ', ' ', 'x'] ∧
        editor.position = .ok { line := 0, column := 2 } ∧
        (editor.step .insertLine).toOption.any
          (fun ends => decide (ends.2 = .applied true)) = true ∧
        (editor.step (.insertChar 'y')).toOption.any
          (fun ends => decide (ends.2 = .applied true)) = true)
      (by decide +kernel)
  obtain ⟨character, plain, reads, enter⟩ := backspace_undoes_typing reachable
  obtain ⟨next, steps⟩ := exists_of_result enters
  obtain ⟨typed, puts⟩ := exists_of_result types
  obtain ⟨recovered, deletes, recovers⟩ := character 'y' typed (by decide) (by decide) puts
  obtain ⟨row, column⟩ := Position.mk.inj (Except.ok.inj (place.symm.trans reads.position))
  have right : plain.right = ['x'] := by
    rw [reads.lines] at line
    rw [PlainText.right, PlainText.current, List.getD_eq_getElem?_getD, ← row, ← column, line]
    rfl
  have solid : ∀ char, plain.right.head? = some char → isBlank char = false := by
    intro char first
    rw [right] at first
    obtain rfl := Option.some.inj first
    rfl
  exact ⟨editor, next, recovered, answers, plain, runs, steps, reads, enter solid next steps,
    typed, puts, deletes, recovers⟩

end Editor

end EditorCore
