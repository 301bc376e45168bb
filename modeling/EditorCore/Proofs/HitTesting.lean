import EditorCore.Proofs.CaretX
import EditorCore.Proofs.Positions

/-!
Contract: pointing at the page finds the place that is drawn there.

Owns:
- `AtDistance`, the column that a distance from the left edge belongs to, said by the widths
  of a line alone, and that the search along the line finds it;
- `Editor.AtHeight`, the line that a height belongs to, said by the places of lines alone, and
  that the quotient of heights finds it;
- that pointing at a place puts the caret there, and pointing at the caret leaves it.

Does not own: what the caret's distance is, or how lines are placed.
-/

namespace EditorCore

/-- The width of the characters of a line before a column. -/
def widthBefore (advance : Char → ℚ) (chars : List Char) (column : ℕ) : ℚ :=
  ((chars.take column).map advance).sum

/-- The column that a distance from the left edge belongs to: the one whose character
reaches the distance, or the last one past the line. -/
inductive AtDistance (advance : Char → ℚ) (chars : List Char) (distance : ℚ) : ℕ → Prop
  | left (before : distance ≤ 0) : AtDistance advance chars distance 0
  | within {column : ℕ} (inside : column < chars.length)
      (after : widthBefore advance chars column < distance)
      (reached : distance ≤ widthBefore advance chars (column + 1)) :
      AtDistance advance chars distance (column + 1)
  | right (beyond : widthBefore advance chars chars.length < distance) :
      AtDistance advance chars distance chars.length

section Columns

variable {advance : Char → ℚ} {chars : List Char} {column : ℕ} {goal : ℚ}

@[simp]
theorem widthBefore_zero (advance : Char → ℚ) (chars : List Char) :
    widthBefore advance chars 0 = 0 := rfl

theorem widthBefore_cons (advance : Char → ℚ) (char : Char) (rest : List Char) (column : ℕ) :
    widthBefore advance (char :: rest) (column + 1) =
      advance char + widthBefore advance rest column := by
  rw [widthBefore, List.take_succ_cons, List.map_cons, List.sum_cons, widthBefore]

theorem widthBefore_succ (inside : column < chars.length) :
    widthBefore advance chars (column + 1) =
      widthBefore advance chars column + advance chars[column] := by
  rw [widthBefore, List.take_succ_eq_append_getElem inside, List.map_append, List.sum_append,
    List.map_singleton, List.sum_singleton, widthBefore]

/-- Columns lie from left to right. -/
theorem widthBefore_mono (nonneg : ∀ char, 0 ≤ advance char) (chars : List Char) {later : ℕ}
    (order : column ≤ later) :
    widthBefore advance chars column ≤ widthBefore advance chars later := by
  obtain ⟨more, rfl⟩ := Nat.exists_eq_add_of_le order
  rw [widthBefore, widthBefore, List.take_add, List.map_append, List.sum_append]
  exact le_add_of_nonneg_right (sum_advances_nonneg nonneg _)

/-- No column before the one that is found reaches the goal. -/
theorem lt_of_lt_columnAt (width : ℚ)
    (before : column < (Editor.columnAt advance goal width chars).1) :
    width + widthBefore advance chars column < goal := by
  induction chars generalizing width column with
  | nil => exact absurd before (Nat.not_lt_zero _)
  | cons char rest inductionHypothesis =>
      rw [Editor.columnAt] at before
      split at before
      · exact absurd before (Nat.not_lt_zero _)
      · rename_i short
        cases column with
        | zero =>
            rw [Coordinate.atMost_iff, not_le] at short
            rwa [widthBefore_zero, add_zero]
        | succ column =>
            rw [widthBefore_cons, ← add_assoc]
            exact inductionHypothesis _ (Nat.lt_of_succ_lt_succ before)

/-- The column that is found reaches the goal, unless the line ends there. -/
theorem le_width_columnAt (width : ℚ)
    (inside : (Editor.columnAt advance goal width chars).1 < chars.length) :
    goal ≤ width + widthBefore advance chars (Editor.columnAt advance goal width chars).1 := by
  induction chars generalizing width with
  | nil => exact absurd inside (Nat.not_lt_zero _)
  | cons char rest inductionHypothesis =>
      rw [Editor.columnAt] at inside ⊢
      split at inside
      · rename_i reached
        rw [if_pos reached, widthBefore_zero, add_zero]
        exact Coordinate.atMost_iff.mp reached
      · rename_i short
        rw [if_neg short]
        change goal ≤ width + widthBefore advance (char :: rest) (_ + 1)
        rw [widthBefore_cons, ← add_assoc]
        exact inductionHypothesis _ (Nat.lt_of_succ_lt_succ inside)

/-- The search along a line finds the column that a distance belongs to. -/
theorem AtDistance.columnAt_eq (nonneg : ∀ char, 0 ≤ advance char)
    (there : AtDistance advance chars goal column) :
    (Editor.columnAt advance goal 0 chars).1 = column := by
  have short : ∀ earlier, earlier < (Editor.columnAt advance goal 0 chars).1 →
      widthBefore advance chars earlier < goal := by
    intro earlier before
    have falls := lt_of_lt_columnAt 0 before
    rwa [zero_add] at falls
  have reaches : (Editor.columnAt advance goal 0 chars).1 < chars.length →
      goal ≤ widthBefore advance chars (Editor.columnAt advance goal 0 chars).1 := by
    intro inside
    have reached := le_width_columnAt 0 inside
    rwa [zero_add] at reached
  have bounded := Editor.columnAt_le_length advance goal 0 chars
  generalize (Editor.columnAt advance goal 0 chars).1 = found at short reaches bounded ⊢
  cases there with
  | left before =>
      apply Nat.eq_zero_of_not_pos
      intro further
      exact absurd before (not_le.mpr (short 0 further))
  | @within column inside after reached =>
      apply Nat.le_antisymm
      · apply Nat.le_of_not_lt
        intro further
        exact absurd reached (not_le.mpr (short (column + 1) further))
      · apply Nat.lt_of_not_le
        intro early
        have mono := widthBefore_mono nonneg chars early
        linarith [reaches (Nat.lt_of_le_of_lt early inside)]
  | right beyond =>
      apply Nat.le_antisymm bounded
      apply Nat.le_of_not_lt
      intro early
      have mono := widthBefore_mono nonneg chars bounded
      linarith [reaches early]

/-- The width before a column of glyphs belongs to that column. -/
theorem AtDistance.of_widthBefore (positive : ∀ char ∈ chars, 0 < advance char)
    (inside : column ≤ chars.length) :
    AtDistance advance chars (widthBefore advance chars column) column := by
  cases column with
  | zero => exact .left (le_refl 0)
  | succ column =>
      refine .within inside ?_ (le_refl _)
      rw [widthBefore_succ inside]
      exact lt_add_of_pos_right _ (positive _ (List.getElem_mem inside))

theorem AtDistance.le_length (there : AtDistance advance chars goal column) :
    column ≤ chars.length := by
  cases there with
  | left before => exact Nat.zero_le _
  | within inside after reached => exact inside
  | right beyond => exact Nat.le_refl _

end Columns

namespace Editor

/-- The line that a height belongs to: the one whose slot it is in, or the first or the last
one where it is in none. -/
inductive AtHeight (editor : Editor ℚ) (y : ℚ) (row : ℕ) (line : Line ℚ) : Prop
  | above (first : row = 0) (before : y < line.displayOrigin) : AtHeight editor y row line
  | within (starts : line.displayOrigin ≤ y)
      (ends : y < line.displayOrigin + editor.lines.layout.lineHeight) :
      AtHeight editor y row line
  | below (last : row + 1 = editor.lines.size)
      (beyond : line.displayOrigin + editor.lines.layout.lineHeight ≤ y) :
      AtHeight editor y row line

/-- Pointing at the caret, while it is drawn, leaves it where it is. -/
def FindsCaret (editor : Editor ℚ) : Prop :=
  ∀ focused rect, editor.caretRect focused = .ok (some rect) →
    ∃ next, editor.moveToPoint rect.x rect.y = .ok next ∧ next.position = editor.position ∧
      next.cursor.x = editor.cursor.x

section

variable {editor : Editor ℚ} {draft : Draft} {row column : ℕ} {line : Line ℚ} {x y : ℚ}

/-- The quotient of heights finds the line that a height belongs to. -/
theorem AtHeight.lineAtY_eq (there : editor.AtHeight y row line) (shows : editor.Shows draft)
    (positive : 0 < editor.lines.layout.lineHeight)
    (found : editor.lines.get? row = some line) : editor.lines.lineAtY y = row := by
  have inside : row < editor.lines.size := (List.getElem?_eq_some_iff.mp found).1
  obtain ⟨text, -, rfl⟩ := shows.exists_text found
  rw [shows.lineAtY_eq_iff positive inside]
  cases there with
  | above first before =>
      exact ⟨.inl first, .inr (before.trans (lt_add_of_pos_right _ positive))⟩
  | within starts ends => exact ⟨.inr starts, .inr ends⟩
  | below last beyond =>
      exact ⟨.inr (le_trans (le_add_of_nonneg_right (le_of_lt positive)) beyond), .inl last⟩

/-- A measured caret is as far from the left as the width before its column. -/
theorem Measured.x_eq_widthBefore {next : Editor ℚ}
    (measured : Measured editor.metrics editor.options.textSize next)
    (widths : editor.metrics.runWidth = GlyphMetrics.sumOfAdvances editor.metrics.advance)
    (shows : next.Shows draft) :
    next.cursor.x = widthBefore editor.advance draft.current draft.column := by
  have before : draft.current.take draft.column = draft.before := List.take_left
  rw [measured.x_eq shows, widths, GlyphMetrics.sumOfAdvances_eq_sum, widthBefore, before]
  rfl

/-- Pointing puts the caret at the place that a height and a distance belong to. -/
theorem Reachable.pointing (reachable : editor.Reachable)
    (widths : editor.metrics.runWidth = GlyphMetrics.sumOfAdvances editor.metrics.advance)
    (nonneg : ∀ char, 0 ≤ editor.advance char) (height : 0 < editor.options.lineHeight)
    (found : editor.lines.get? row = some line) (high : editor.AtHeight y row line)
    (across : AtDistance editor.advance (editor.charsOf line)
      (x - editor.lines.layout.originX) column) :
    ∃ next, editor.moveToPoint x y = .ok next ∧
      next.position = .ok { line := row, column } ∧
      next.cursor.x = widthBefore editor.advance (editor.charsOf line) column := by
  obtain ⟨draft, shows⟩ := reachable.shows
  have adds := GlyphMetrics.addsUp_of_nonneg widths nonneg
  rw [← reachable.lineHeight_eq] at height
  have slot := high.lineAtY_eq shows height found
  obtain ⟨text, here, rfl⟩ := shows.exists_text found
  rw [shows.charsOf_rule here] at across ⊢
  have place : editor.pointed draft x y = { line := row, column } := by
    rw [LineTable.lineAtY, shows.size] at slot
    rw [pointed, slot, List.getD_eq_getElem?_getD, here]
    exact congrArg (Position.mk row) (across.columnAt_eq nonneg)
  obtain ⟨next, moves, settled⟩ := shows.moveToPoint x y
  rw [place] at settled
  have measured := (reachable.measured adds).moveToPoint adds x y next moves
  have columns : (draft.goTo { line := row, column }).column = column := by
    rw [Draft.goTo, Draft.column_seek here, Nat.min_eq_left across.le_length]
  refine ⟨next, moves, ?_, ?_⟩
  · rw [settled.toShows.position_eq]
    exact congrArg Except.ok (Draft.position_goTo here across.le_length)
  · rw [measured.x_eq_widthBefore widths settled.toShows, columns, Draft.goTo,
      Draft.current_seek here]

/-- Where the caret is drawn. -/
theorem caretRect_eq_some {focused : Bool} {rect : Rect ℚ}
    (draws : editor.caretRect focused = .ok (some rect)) :
    ∃ line, editor.currentLine = .ok line ∧
      rect.x = editor.lines.layout.originX + editor.cursor.x ∧ rect.y = line.displayOrigin := by
  unfold caretRect at draws
  split at draws
  · obtain ⟨line, here, returns⟩ := exists_of_bind draws
    obtain rfl := Option.some.inj (Except.ok.inj returns)
    exact ⟨line, here, rfl, rfl⟩
  · exact absurd (Except.ok.inj draws) nofun

/-- The corner of the caret's rectangle belongs to the place of the caret. -/
theorem Reachable.findsCaret (reachable : editor.Reachable)
    (widths : editor.metrics.runWidth = GlyphMetrics.sumOfAdvances editor.metrics.advance)
    (nonneg : ∀ char, 0 ≤ editor.advance char)
    (positive : ∀ char, isBreak char = false → 0 < editor.advance char)
    (height : 0 < editor.options.lineHeight) : editor.FindsCaret := by
  intro focused rect draws
  obtain ⟨line, here, rectX, rectY⟩ := caretRect_eq_some draws
  obtain ⟨draft, shows⟩ := reachable.shows
  have measured := reachable.measured (GlyphMetrics.addsUp_of_nonneg widths nonneg)
  have chars : editor.charsOf line = draft.current := by
    obtain rfl := Except.ok.inj (here.symm.trans shows.currentLine_eq)
    exact shows.slice_current
  have glyphs : ∀ char ∈ draft.current, 0 < editor.advance char := fun char member =>
    positive char (shows.unbroken _ (List.mem_of_getElem? draft.getElem?_lines_row) char member)
  have inside : draft.column ≤ draft.current.length := by
    have width := draft.length_current
    omega
  have x_eq := measured.x_eq_widthBefore widths shows
  have across := AtDistance.of_widthBefore glyphs inside
  rw [← x_eq, ← chars, ← add_sub_cancel_left editor.lines.layout.originX editor.cursor.x,
    ← rectX] at across
  have high : editor.AtHeight rect.y editor.cursor.line line := by
    refine .within (le_of_eq rectY.symm) ?_
    rw [rectY, reachable.lineHeight_eq]
    exact lt_add_of_pos_right _ height
  obtain ⟨next, moves, position, x⟩ := reachable.pointing widths nonneg height
    (LineTable.get_eq_ok_iff.mp here) high across
  refine ⟨next, moves, ?_, ?_⟩
  · rw [position, shows.position_eq, shows.row]
    rfl
  · rw [x, x_eq, chars]

end

/-- Wherever lines and columns are placed, pointing there finds them; pointing past them
finds the nearest, and pointing at the caret leaves it, wherever the widget is moved. -/
structure InvertsPlacing (editor : Editor ℚ) : Prop where
  finds : ∀ x y row line column, editor.lines.get? row = some line →
    editor.AtHeight y row line →
    AtDistance editor.advance (editor.charsOf line) (x - editor.lines.layout.originX) column →
      ∃ next, editor.moveToPoint x y = .ok next ∧
        next.position = .ok { line := row, column } ∧
        next.cursor.x = widthBefore editor.advance (editor.charsOf line) column
  findsCaret : editor.FindsCaret
  findsMoved : ∀ x y, (editor.setOrigin x y).FindsCaret

/-- Hit testing is the inverse of placing as long as glyphs take some width and lines some
height.  Breaks are on no line, and may take none. -/
theorem pointing_inverts_placing {editor : Editor ℚ} (reachable : editor.Reachable)
    (widths : editor.metrics.runWidth = GlyphMetrics.sumOfAdvances editor.metrics.advance)
    (nonneg : ∀ char, 0 ≤ editor.advance char)
    (positive : ∀ char, isBreak char = false → 0 < editor.advance char)
    (height : 0 < editor.options.lineHeight) : editor.InvertsPlacing where
  finds := by
    intro x y row line column found high across
    exact reachable.pointing widths nonneg height found high across
  findsCaret := reachable.findsCaret widths nonneg positive height
  findsMoved := by
    intro x y
    have moved : (editor.setOrigin x y).Reachable :=
      .stepped reachable (show editor.step (.setOrigin x y) = .ok (_, .done) from rfl)
    exact moved.findsCaret widths nonneg positive height

/-- A document of two lines that has been moved on the page. -/
theorem pointing_inverts_placing_standard :
    ∃ editor answers,
      standardExact.run [.loadDocument "ab c\n\tde", .setOrigin 3 (-4)] = .ok (editor, answers) ∧
        editor.InvertsPlacing := by
  obtain ⟨editor, answers, runs, reachable⟩ := reachable_standardExact.of_run
    [.loadDocument "ab c\n\tde", .setOrigin 3 (-4)] (by decide +kernel)
  have positive : ∀ char, isBreak char = false → 0 < editor.advance char := by
    intro char glyph
    rw [advance_of_run runs, glyph]
    norm_num
  exact ⟨editor, answers, runs, pointing_inverts_placing reachable (widths_of_run runs)
    (advance_nonneg_of_run runs) positive (lineHeight_pos_of_run runs)⟩

end Editor

end EditorCore
