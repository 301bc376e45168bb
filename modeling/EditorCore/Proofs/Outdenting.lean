import EditorCore.Proofs.AutoIndent
import EditorCore.Proofs.Undoing

/-!
Contract: Tab and the steps back out of an indentation keep to the same units.

Owns:
- `StepsOut`, what one step back leaves of a run of blanks, said without the width that
  is removed;
- that a step back leaves just that, and loses at most one unit of the level;
- what Tab does to the level, that steps back take back any number of Tabs, and that they
  lead out of every indentation.

Does not own: whether a Tab is accepted.
-/

namespace EditorCore

variable {κ : Type}

/-! ## Runs of blanks -/

/-- One step back out of a run of blanks.  A tab at its end goes alone; spaces at its end
are cut to the largest multiple of the unit's length below their number. -/
inductive StepsOut (unitLength : Nat) : List Char → List Char → Prop
  | tab (kept : List Char) : StepsOut unitLength (kept ++ ['\t']) kept
  | spaces {kept : List Char} {count left : Nat} (ends : trailingSpaces kept = 0)
      (whole : unitLength ∣ left) (below : left < count)
      (largest : ∀ other, unitLength ∣ other → other < count → other ≤ left) :
      StepsOut unitLength (kept ++ List.replicate count ' ') (kept ++ List.replicate left ' ')

/-- The units of a run do not depend on the order of its blanks. -/
theorem indentUnits_perm {tabSize : Nat} {run other : List Char} (same : run.Perm other) :
    indentUnits tabSize run = indentUnits tabSize other := by
  rw [indentUnits, indentUnits, same.count_eq, same.length_eq]

theorem indentUnits_append_tab (tabSize : Nat) (run : List Char) :
    indentUnits tabSize (run ++ ['\t']) = indentUnits tabSize run + 1 := by
  rw [indentUnits, indentUnits, List.count_append, List.length_append, List.count_singleton_self,
    List.length_singleton, Nat.add_sub_add_right]
  omega

/-- Spaces at the end of a run are grouped together with all others in it. -/
theorem indentUnits_append_spaces (tabSize : Nat) (run : List Char) (count : Nat) :
    indentUnits tabSize (run ++ List.replicate count ' ') =
      run.count '\t' + (run.length - run.count '\t' + count) / max tabSize 1 := by
  have tabs : run.count '\t' ≤ run.length := List.count_le_length
  have none : (List.replicate count ' ').count '\t' = 0 :=
    List.count_eq_zero.mpr fun member => absurd (List.eq_of_mem_replicate member) (by decide)
  rw [indentUnits, List.count_append, none, List.length_append, List.length_replicate,
    Nat.add_zero, Nat.sub_add_comm tabs]

/-- The part of a run before its last spaces. -/
theorem exists_eq_append_spaces (run : List Char) :
    ∃ kept, run = kept ++ List.replicate (trailingSpaces run) ' ' ∧ trailingSpaces kept = 0 := by
  have spaces : run.reverse.takeWhile (· = ' ') = List.replicate (trailingSpaces run) ' ' :=
    List.eq_replicate_iff.mpr
      ⟨rfl, fun char member => of_decide_eq_true (List.all_eq_true.mp List.all_takeWhile char member)⟩
  have split := List.takeWhile_append_dropWhile (p := (· = ' ')) (l := run.reverse)
  have whole : run = (run.reverse.dropWhile (· = ' ')).reverse ++
      List.replicate (trailingSpaces run) ' ' := by
    rw [spaces] at split
    rw [← List.reverse_replicate, ← List.reverse_append, split, List.reverse_reverse]
  refine ⟨_, whole, ?_⟩
  have counted := trailingSpaces_append_replicate (run.reverse.dropWhile (· = ' ')).reverse
    (trailingSpaces run)
  rw [← whole] at counted
  omega

section StepsOut

variable {unitLength tabSize : Nat} {run left : List Char}

/-- What is removed of so many spaces leaves the largest multiple of the unit below them. -/
theorem largest_multiple_below {count width : Nat} (positive : 0 < unitLength)
    (some : count ≠ 0)
    (removes : width = if count % unitLength = 0 then unitLength else count % unitLength) :
    (width ≤ count ∧ unitLength ∣ count - width ∧ count - width < count) ∧
      ∀ other, unitLength ∣ other → other < count → other ≤ count - width := by
  have bounds : 0 < width ∧ width ≤ count ∧ width ≤ unitLength ∧ unitLength ∣ count - width := by
    subst removes
    split
    · rename_i whole
      have divides := Nat.dvd_of_mod_eq_zero whole
      exact ⟨positive, Nat.le_of_dvd (Nat.pos_of_ne_zero some) divides, Nat.le_refl _,
        Nat.dvd_sub divides (Nat.dvd_refl _)⟩
    · rename_i partly
      exact ⟨Nat.pos_of_ne_zero partly, Nat.mod_le _ _, Nat.le_of_lt (Nat.mod_lt _ positive),
        Nat.dvd_sub_mod count⟩
  obtain ⟨removed, inside, narrow, divides⟩ := bounds
  refine ⟨⟨inside, divides, by omega⟩, ?_⟩
  rintro _ ⟨others, rfl⟩ below
  obtain ⟨units, reach⟩ := divides
  have fewer : unitLength * others < unitLength * (units + 1) := by
    rw [Nat.mul_succ]
    omega
  rw [reach]
  exact Nat.mul_le_mul_left _ (Nat.le_of_lt_succ (Nat.lt_of_mul_lt_mul_left fewer))

/-- A step back leaves a run as it has to be left. -/
theorem stepsOut_take (positive : 0 < unitLength) (some : run ≠ [])
    (blank : ∀ char ∈ run, isBlank char = true) :
    StepsOut unitLength run (run.take (run.length - outdentWidth run unitLength)) := by
  rw [outdentWidth, if_neg (not_or.mpr ⟨some, Nat.ne_of_gt positive⟩)]
  by_cases bare : trailingSpaces run = 0
  · -- The last blank is no space, so that it is a tab.
    obtain ⟨kept, last, rfl⟩ : ∃ kept last, run = kept ++ [last] :=
      ⟨_, _, (List.dropLast_concat_getLast some).symm⟩
    have solid : last ≠ ' ' := by
      rintro rfl
      have counted := trailingSpaces_append_replicate kept 1
      rw [List.replicate_one, bare] at counted
      omega
    have tab : last = '\t' := by
      have ends := blank last (List.mem_append_right _ List.mem_cons_self)
      simpa [isBlank, solid] using ends
    subst tab
    rw [if_pos bare, List.length_append, List.length_singleton, Nat.add_sub_cancel, List.take_left]
    exact .tab kept
  · obtain ⟨kept, split, ends⟩ := exists_eq_append_spaces run
    obtain ⟨⟨inside, whole, below⟩, largest⟩ := largest_multiple_below positive bare rfl
    rw [if_neg bare]
    generalize trailingSpaces run = count at *
    subst split
    rw [List.length_append, List.length_replicate, Nat.add_sub_assoc inside,
      List.take_length_add_append, List.take_replicate, Nat.min_eq_left (Nat.sub_le _ _)]
    exact .spaces ends whole below largest

theorem StepsOut.isPrefix (steps : StepsOut unitLength run left) : left <+: run := by
  cases steps with
  | tab kept => exact List.prefix_append _ _
  | @spaces kept count left _ _ below =>
      refine (List.prefix_append_right_inj kept).mpr ?_
      rw [← Nat.add_sub_cancel' (Nat.le_of_lt below), ← List.replicate_append_replicate]
      exact List.prefix_append _ _

theorem StepsOut.length_lt (steps : StepsOut unitLength run left) : left.length < run.length := by
  cases steps with
  | tab kept => simp
  | spaces _ _ below => simpa using below

/-- A step back loses at most one of the units that a run holds. -/
theorem StepsOut.indentUnits_bounds (steps : StepsOut unitLength run left)
    (positive : 0 < unitLength) (narrow : unitLength ≤ max tabSize 1) :
    indentUnits tabSize left ≤ indentUnits tabSize run ∧
      indentUnits tabSize run ≤ indentUnits tabSize left + 1 := by
  cases steps with
  | tab kept =>
      rw [indentUnits_append_tab]
      omega
  | @spaces kept count left _ whole below largest =>
      -- The next multiple after the largest one below is not below.
      have reach : count ≤ left + unitLength := by
        refine Nat.le_of_not_lt fun past => ?_
        have next := largest (left + unitLength) (Nat.dvd_add whole (Nat.dvd_refl _)) past
        omega
      rw [indentUnits_append_spaces, indentUnits_append_spaces, Nat.add_assoc]
      have group : 0 < max tabSize 1 := by omega
      refine ⟨Nat.add_le_add_left (Nat.div_le_div_right (by omega)) _, Nat.add_le_add_left ?_ _⟩
      rw [← Nat.add_div_right _ group]
      exact Nat.div_le_div_right (by omega)

end StepsOut

/-! ## Drafts -/

/-- Another left part of the line of the position, which is at its end. -/
def PlainText.leftWith (plain : PlainText) (left : List Char) : PlainText :=
  plain.replaced [left ++ plain.right] plain.row left.length

namespace Draft

variable {options : Options κ} {draft : Draft}

def leftWith (draft : Draft) (left : List Char) : Draft := { draft with before := left }

theorem plain_leftWith (left : List Char) :
    (draft.leftWith left).plain = draft.plain.leftWith left := by
  rw [PlainText.leftWith, replaced_plain, right_plain, row_plain]
  simp [plain, leftWith, lines, current, row, column]

/-- A unit that is put into the indentation counts as one more. -/
theorem indentUnits_typed_of_inside (aligned : options.Aligned)
    (inside : draft.column ≤ leadingBlanks draft.current) :
    indentUnits options.tabSize
        ((draft.typed options.indentUnit.chars).current.takeWhile isBlank) =
      indentUnits options.tabSize (draft.current.takeWhile isBlank) + 1 := by
  have unit : indentation options 1 = options.indentUnit.chars := by simp [indentation]
  have blank : ∀ char ∈ draft.before ++ options.indentUnit.chars, isBlank char = true := by
    rw [List.forall_mem_append, ← unit, ← takeWhile_before_of_inside inside]
    exact ⟨List.all_eq_true.mp List.all_takeWhile, fun _ => isBlank_of_mem_indentation⟩
  have whole : (draft.typed options.indentUnit.chars).current =
      draft.before ++ options.indentUnit.chars ++ draft.after := rfl
  have moved : (draft.before ++ options.indentUnit.chars ++ draft.after.takeWhile isBlank).Perm
      (options.indentUnit.chars ++ (draft.before ++ draft.after.takeWhile isBlank)) := by
    rw [← List.append_assoc]
    exact List.perm_append_comm.append_right _
  rw [whole, List.takeWhile_append_of_pos blank, indentUnits_perm moved, ← unit,
    indentUnits_indentation_append aligned, takeWhile_current_of_inside inside, Nat.add_comm 1]

/-- What is put behind the indentation does not become part of it. -/
theorem takeWhile_typed_of_past (past : leadingBlanks draft.current < draft.column)
    (run : List Char) :
    (draft.typed run).current.takeWhile isBlank = draft.current.takeWhile isBlank := by
  have solid : ¬ (draft.before.takeWhile isBlank).length = draft.before.length := by
    intro whole
    rw [leadingBlanks, current, List.takeWhile_append, if_pos whole, List.length_append] at past
    exact absurd past (Nat.not_lt.mpr (Nat.le_add_right _ _))
  have typed : (draft.typed run).current = draft.before ++ (run ++ draft.after) :=
    List.append_assoc _ _ _
  rw [typed, current, List.takeWhile_append, if_neg solid, List.takeWhile_append, if_neg solid]

theorem AtIndentEnd.takeWhile_current (atEnd : draft.AtIndentEnd) :
    draft.current.takeWhile isBlank = draft.before := by
  have nothing : draft.after.takeWhile isBlank = [] := List.eq_nil_of_length_eq_zero atEnd.solid
  rw [current, List.takeWhile_append_of_pos atEnd.blank, nothing, List.append_nil]

theorem AtIndentEnd.leftWith (atEnd : draft.AtIndentEnd) {left : List Char}
    (shorter : left <+: draft.before) : (draft.leftWith left).AtIndentEnd where
  blank := fun char member => atEnd.blank char (shorter.subset member)
  solid := atEnd.solid

/-- A step back at the end of an indentation is one step out of it. -/
theorem AtIndentEnd.stepBack_eq (atEnd : draft.AtIndentEnd) (some : draft.before ≠ []) :
    ∃ left, draft.stepBack options = .accepted (draft.leftWith left) ∧
      StepsOut options.indentUnit.length draft.before left := by
  have boundary : draft.AtIndentBoundary :=
    ⟨List.length_pos_iff.mpr some, atIndentEnd_iff.mp atEnd⟩
  exact ⟨_, if_pos boundary, stepsOut_take options.indentUnit.length_pos some atEnd.blank⟩

end Draft

/-! ## Editors -/

theorem Options.Aligned.unit_le {options : Options κ} (aligned : options.Aligned) :
    options.indentUnit.length ≤ max options.tabSize 1 := by
  cases unit : options.indentUnit with
  | tab => exact Nat.le_max_right _ _
  | spaces width => exact Nat.le_of_eq (aligned width unit)

namespace Editor

/-- The caret is at the end of its line's indentation, or at the start of a line that has
none. -/
def AtIndentEnd (editor : Editor κ) : Prop :=
  ∃ line, editor.lines.get? editor.cursor.line = some line ∧
    editor.cursor.caret = line.indentEnd

variable [Coordinate κ]

/-- Tab and the steps back keep to the same units. -/
structure AlignsSteps (editor : Editor κ) (plain : PlainText) : Prop where
  /-- A Tab in the indentation makes it deeper by one. -/
  deepens : ∀ next, editor.step .indent = .ok (next, .applied true) → editor.InIndentation →
    next.cursor.indentLevel = editor.cursor.indentLevel + 1
  /-- A Tab behind the indentation does not. -/
  keeps : ∀ next, editor.step .indent = .ok (next, .applied true) → ¬ editor.InIndentation →
    next.cursor.indentLevel = editor.cursor.indentLevel
  /-- At the end of the indentation, a step back leaves everything but the run of blanks,
  of which it takes one step. -/
  stepsOut : editor.atIndentBoundary = .ok true →
    ∀ call, call = .deleteChar ∨ call = .outdent →
      ∃ next left, editor.step call = .ok (next, .applied true) ∧
        next.Reads (plain.leftWith left) ∧
        StepsOut editor.options.indentUnit.length plain.left left ∧
        next.cursor.indentLevel ≤ editor.cursor.indentLevel ∧
        editor.cursor.indentLevel ≤ next.cursor.indentLevel + 1
  /-- Where the indentation ends in whole units of spaces, or in a tab, or where there is
  none, as many Backspaces as Tabs lead back. -/
  restores : editor.AtIndentEnd →
    editor.options.indentUnit.length ∣ trailingSpaces plain.left →
      ∀ count deeper,
        editor.run (List.replicate count .indent) =
            .ok (deeper, List.replicate count (.applied true)) →
          ∃ last, deeper.run (List.replicate count .deleteChar) =
              .ok (last, List.replicate count (.applied true)) ∧
            editor.Recovers last
  /-- Backspaces lead to the start of the line.  On their way they only shorten the run of
  blanks on the left of the caret. -/
  leadsOut : editor.atIndentBoundary = .ok true →
    (∀ char ∈ plain.left, isBlank char = true) ∧
      ∃ count, ∀ done ≤ count, ∃ partly left,
        editor.run (List.replicate done .deleteChar) =
            .ok (partly, List.replicate done (.applied true)) ∧
          partly.Reads (plain.leftWith left) ∧ left <+: plain.left ∧ (done = count → left = [])

section

variable {editor next : Editor κ} {draft : Draft}

theorem Represents.inIndentation_iff (represents : editor.Represents draft) :
    editor.InIndentation ↔ draft.column ≤ leadingBlanks draft.current := by
  refine ⟨represents.inside_of_inIndentation, fun inside => ?_⟩
  refine ⟨_, represents.get?_cursor, ?_⟩
  rw [represents.caret]
  exact Nat.add_le_add_left inside _

theorem Represents.atIndentEnd_of (represents : editor.Represents draft)
    (atEnd : editor.AtIndentEnd) : draft.AtIndentEnd := by
  obtain ⟨line, found, here⟩ := atEnd
  obtain rfl := Option.some.inj (represents.get?_cursor.symm.trans found)
  rw [represents.caret] at here
  exact Draft.atIndentEnd_iff.mpr (Nat.add_left_cancel here)

theorem Represents.boundary_of (represents : editor.Represents draft)
    (boundary : editor.atIndentBoundary = .ok true) :
    draft.before ≠ [] ∧ draft.AtIndentEnd := by
  rw [represents.atIndentBoundary_eq] at boundary
  obtain ⟨some, reach⟩ := of_decide_eq_true (Except.ok.inj boundary)
  exact ⟨List.length_pos_iff.mp some, Draft.atIndentEnd_iff.mpr reach⟩

/-- An accepted Tab has typed one unit. -/
theorem Shows.makes_indent (shows : editor.Shows draft)
    (steps : editor.step .indent = .ok (next, .applied true)) :
    editor.Makes next (draft.typed editor.options.indentUnit.chars) := by
  change editor.step Edit.tab.call = .ok (next, Edit.tab.acceptance) at steps
  obtain ⟨target, accepted, makes⟩ := shows.makes_of_step steps
  obtain ⟨-, rfl⟩ := Verdict.within_eq_accepted.mp accepted
  exact makes

/-- Accepted Tabs have typed as many units, by induction on their number. -/
theorem Shows.run_indent (count : Nat) :
    ∀ {editor last : Editor κ} {draft : Draft}, editor.Shows draft →
      editor.run (List.replicate count .indent) =
        .ok (last, List.replicate count (.applied true)) →
      editor.Makes last (draft.typed (Draft.indentation editor.options count)) := by
  induction count with
  | zero =>
      intro editor last draft shows runs
      obtain ⟨rfl, -⟩ := Prod.mk.inj (Except.ok.inj runs)
      exact ⟨by simpa [Draft.indentation] using shows, rfl, rfl⟩
  | succ count inductionHypothesis =>
      intro editor last draft shows runs
      obtain ⟨next, answer, rest, steps, goesOn, answers⟩ := exists_of_run_cons runs
      obtain ⟨rfl, rfl⟩ := List.cons.inj answers
      have makes := shows.makes_indent steps
      have again := inductionHypothesis makes.toShows goesOn
      rw [makes.options, Draft.typed_typed] at again
      exact makes.trans again

/-- Shift-Tab goes through where the verdict accepts. -/
theorem Shows.step_outdent (shows : editor.Shows draft) {target : Draft}
    (steps : draft.stepBack editor.options = .accepted target) :
    ∃ next, editor.step .outdent = .ok (next, .applied true) ∧ editor.Makes next target := by
  have accepted : (editor.manuscript draft).verdict .outdent = .accepted target := steps
  exact shows.step_of_accepted accepted

/-- One step out of the indentation. -/
theorem Shows.stepsOut (shows : editor.Shows draft) (aligned : editor.options.Aligned)
    (atEnd : draft.AtIndentEnd) (some : draft.before ≠ []) {call : Call κ}
    (back : call = .deleteChar ∨ call = .outdent) :
    ∃ next left, editor.step call = .ok (next, .applied true) ∧
      next.Reads (draft.plain.leftWith left) ∧
      StepsOut editor.options.indentUnit.length draft.plain.left left ∧
      next.cursor.indentLevel ≤ editor.cursor.indentLevel ∧
      editor.cursor.indentLevel ≤ next.cursor.indentLevel + 1 := by
  obtain ⟨left, leads, steps⟩ := atEnd.stepBack_eq some
  have goes : ∃ next, editor.step call = .ok (next, .applied true) ∧
      editor.Makes next (draft.leftWith left) := by
    rcases back with rfl | rfl
    · exact shows.step_deleteChar leads
    · exact shows.step_outdent leads
  obtain ⟨next, goes, makes⟩ := goes
  have rest := (atEnd.leftWith steps.isPrefix).takeWhile_current
  have bounds := steps.indentUnits_bounds editor.options.indentUnit.length_pos aligned.unit_le
  refine ⟨next, left, goes, ?_, ?_, ?_⟩
  · rw [← Draft.plain_leftWith]
    exact makes.reads
  · rwa [Draft.left_plain]
  · rw [makes.indentLevel, makes.options, rest, shows.indentLevel, atEnd.takeWhile_current]
    exact bounds

/-- Backspaces lead out of the indentation, step by step. -/
theorem Shows.run_stepsOut {editor : Editor κ} {draft : Draft} (shows : editor.Shows draft)
    (atEnd : draft.AtIndentEnd) :
    ∃ count, ∀ done ≤ count, ∃ partly left,
      editor.run (List.replicate done .deleteChar) =
          .ok (partly, List.replicate done (.applied true)) ∧
        editor.Makes partly (draft.leftWith left) ∧ left <+: draft.before ∧
        (done = count → left = []) := by
  have here : ∃ partly left, editor.run (List.replicate 0 .deleteChar) =
      .ok (partly, List.replicate 0 (.applied true)) ∧
        editor.Makes partly (draft.leftWith left) ∧ left <+: draft.before ∧ left = draft.before :=
    ⟨editor, draft.before, rfl, ⟨shows, rfl, rfl⟩, List.prefix_refl _, rfl⟩
  by_cases empty : draft.before = []
  · refine ⟨0, fun done none => ?_⟩
    obtain rfl := Nat.le_zero.mp none
    obtain ⟨partly, left, runs, makes, shorter, same⟩ := here
    exact ⟨partly, left, runs, makes, shorter, fun _ => same.trans empty⟩
  · obtain ⟨left, leads, steps⟩ := atEnd.stepBack_eq empty
    have fewer : (draft.leftWith left).before.length < draft.before.length := steps.length_lt
    obtain ⟨next, goes, makes⟩ := shows.step_deleteChar leads
    obtain ⟨count, leadsOut⟩ := makes.toShows.run_stepsOut (atEnd.leftWith steps.isPrefix)
    refine ⟨count + 1, fun done inside => ?_⟩
    cases done with
    | zero =>
        obtain ⟨partly, left, runs, makes, shorter, -⟩ := here
        exact ⟨partly, left, runs, makes, shorter, fun none => absurd none nofun⟩
    | succ done =>
        obtain ⟨partly, less, runs, again, shorter, out⟩ :=
          leadsOut done (Nat.le_of_succ_le_succ inside)
        exact ⟨partly, less, run_cons goes runs, makes.trans again,
          shorter.trans steps.isPrefix, fun all => out (Nat.succ.inj all)⟩
termination_by draft.before.length

/-- Indentation is put and taken away in the same units, whatever mixture of tabs and
spaces there is. -/
theorem indentation_steps_align (reachable : editor.Reachable) :
    ∃ plain, editor.Reads plain ∧ editor.AlignsSteps plain := by
  obtain ⟨draft, shows⟩ := reachable.shows
  have aligned := reachable.aligned
  refine ⟨draft.plain, shows.reads, ?_, ?_, ?_, ?_, ?_⟩
  · intro next steps inIndentation
    have makes := shows.makes_indent steps
    rw [makes.indentLevel, makes.options, shows.indentLevel]
    exact Draft.indentUnits_typed_of_inside aligned
      (shows.inside_of_inIndentation inIndentation)
  · intro next steps behind
    have makes := shows.makes_indent steps
    rw [shows.inIndentation_iff, Nat.not_le] at behind
    rw [makes.indentLevel, makes.options, shows.indentLevel, Draft.takeWhile_typed_of_past behind]
  · intro boundary call back
    obtain ⟨some, atEnd⟩ := shows.boundary_of boundary
    exact shows.stepsOut aligned atEnd some back
  · intro here units count deeper runs
    rw [Draft.left_plain] at units
    have atEnd : draft.AtUnitEnd editor.options := ⟨shows.atIndentEnd_of here, units⟩
    have makes := shows.run_indent count runs
    have deep := makes.toShows
    rw [← makes.options] at deep atEnd
    rw [← Nat.zero_add count] at deep
    obtain ⟨last, back, again⟩ := Shows.run_deleteChar 0 count atEnd deep
    have same : draft.typed (Draft.indentation deeper.options 0) = draft := draft.typed_nil
    rw [same] at again
    exact ⟨last, back, shows.recovers (makes.trans again)⟩
  · intro boundary
    obtain ⟨-, atEnd⟩ := shows.boundary_of boundary
    obtain ⟨count, leadsOut⟩ := shows.run_stepsOut atEnd
    rw [Draft.left_plain]
    refine ⟨atEnd.blank, count, fun done inside => ?_⟩
    obtain ⟨partly, left, runs, makes, shorter, out⟩ := leadsOut done inside
    refine ⟨partly, left, runs, ?_, shorter, out⟩
    rw [← Draft.plain_leftWith]
    exact makes.reads

end

/-- Two Tabs behind a tab and four spaces, and back. -/
theorem indentation_steps_align_standard :
    ∃ (editor deeper last : Editor Float32) (answers : List Answer) (plain : PlainText),
      standard.run [.loadDocument "\t    x", .moveToPosition { line := 0, column := 5 }] =
        .ok (editor, answers) ∧
      editor.Reads plain ∧ editor.AlignsSteps plain ∧ editor.atIndentBoundary = .ok true ∧
      editor.run [.indent, .indent] = .ok (deeper, [.applied true, .applied true]) ∧
      deeper.run [.deleteChar, .deleteChar] = .ok (last, [.applied true, .applied true]) ∧
      editor.Recovers last := by
  obtain ⟨editor, answers, runs, reachable, line, place, boundary, ends, unit, deepens⟩ :=
    reachable_standard.of_run_to
      [.loadDocument "\t    x", .moveToPosition { line := 0, column := 5 }]
      (fun editor => editor.lineChars? 0 = some "\t    x".toList ∧
        editor.position = .ok { line := 0, column := 5 } ∧ editor.atIndentBoundary = .ok true ∧
        (editor.lines.get? editor.cursor.line).any
          (fun line => decide (editor.cursor.caret = line.indentEnd)) = true ∧
        editor.options.indentUnit.length = 2 ∧
        (editor.run [.indent, .indent]).toOption.any
          (fun ends => decide (ends.2 = [.applied true, .applied true])) = true)
      (by decide +kernel)
  obtain ⟨plain, reads, aligns⟩ := indentation_steps_align reachable
  obtain ⟨deeper, goes⟩ := exists_of_result deepens
  obtain ⟨row, column⟩ := Position.mk.inj (Except.ok.inj (place.symm.trans reads.position))
  have left : plain.left = "\t    ".toList := by
    rw [reads.lines] at line
    rw [PlainText.left, PlainText.current, List.getD_eq_getElem?_getD, ← row, ← column, line]
    decide
  have here : editor.AtIndentEnd := by
    obtain ⟨line, found, same⟩ := (Option.any_eq_true _ _).mp ends
    exact ⟨line, found, of_decide_eq_true same⟩
  obtain ⟨last, back, recovers⟩ :=
    aligns.restores here (by rw [left, unit]; decide) 2 deeper goes
  exact ⟨editor, deeper, last, answers, plain, runs, reads, aligns, boundary, goes, back, recovers⟩

end Editor

end EditorCore
