import Mathlib.Algebra.Order.BigOperators.Group.List
import Mathlib.Data.Rat.Floor
import Mathlib.Tactic.Linarith
import Mathlib.Tactic.NormNum
import Mathlib.Tactic.Ring
import EditorCore.Proofs.Gauging

/-!
Contract: pages measured without rounding.

Owns:
- fractions as coordinates;
- the slots of lines in fractions: which rows are at or above a height;
- widths in fractions: a run is as wide as the sum of its advances, and such widths add
  up as long as no advance is negative;
- a new editor whose page is measured in fractions.

Does not own: what an editor does with heights and widths.
-/

namespace EditorCore

/-- Fractions are added, multiplied and compared as they are. -/
instance : Coordinate ℚ where
  ofCount count := count
  wholeUnits value := min ⌊value⌋₊ Word.largest
  atMost left right := decide (left ≤ right)
  before left right := decide (left < right)

namespace Coordinate

variable {left right value : ℚ}

@[simp]
theorem atMost_iff : atMost left right = true ↔ left ≤ right := decide_eq_true_iff

@[simp]
theorem before_iff : before left right = true ↔ left < right := decide_eq_true_iff

theorem clampToZero_of_nonneg (nonneg : 0 ≤ value) : clampToZero value = value :=
  if_pos (atMost_iff.mpr nonneg)

end Coordinate

/-! ## Slots -/

namespace Layout

variable {layout : Layout ℚ} {row count : ℕ}

theorem lineOrigin_eq (layout : Layout ℚ) (row : ℕ) :
    layout.lineOrigin row = layout.originY + row * layout.lineHeight := rfl

/-- Slots follow one another without gaps. -/
theorem lineOrigin_succ (layout : Layout ℚ) (row : ℕ) :
    layout.lineOrigin (row + 1) = layout.lineOrigin row + layout.lineHeight := by
  rw [lineOrigin_eq, lineOrigin_eq]
  push_cast
  ring

/-- The row of a height is not before another row exactly when the other's slot begins at
the height or above it.  The first row is never behind. -/
theorem le_lineAtY_iff (positive : 0 < layout.lineHeight) (inside : row < count)
    (word : row ≤ Word.largest) (y : ℚ) :
    row ≤ layout.lineAtY count y ↔ row = 0 ∨ layout.lineOrigin row ≤ y := by
  have slots : ¬ (count = 0 ∨ Coordinate.atMost layout.lineHeight 0 = true) := by
    rw [Coordinate.atMost_iff]
    rintro (none | flat)
    · omega
    · exact absurd positive (not_lt.mpr flat)
  have clamped : row ≤ layout.lineAtY count y ↔
      row ≤ ⌊(y - layout.originY) / layout.lineHeight⌋₊ := by
    rw [lineAtY, if_neg slots]
    change row ≤ min (min ⌊(y - layout.originY) / layout.lineHeight⌋₊ Word.largest) (count - 1) ↔ _
    omega
  rw [clamped]
  by_cases first : row = 0
  · simp [first]
  · rw [Nat.le_floor_iff' first, le_div_iff₀ positive, lineOrigin_eq, le_sub_iff_add_le,
      add_comm layout.originY]
    exact (or_iff_right first).symm

end Layout

/-! ## Widths -/

theorem sum_advances_nonneg {advance : Char → ℚ} (nonneg : ∀ char, 0 ≤ advance char)
    (run : List Char) : 0 ≤ (run.map advance).sum :=
  List.sum_nonneg (List.forall_mem_map.mpr fun char _ => nonneg char)

namespace GlyphMetrics

variable {advance : Char → ℚ → ℚ} {size : ℚ}

/-- Adding from left to right gives the sum. -/
theorem sumOfAdvances_eq_sum (advance : Char → ℚ → ℚ) (run : List Char) (size : ℚ) :
    sumOfAdvances advance run size = (run.map (advance · size)).sum := by
  have peeled : ∀ (rest : List Char) (width : ℚ),
      rest.foldl (fun width char => width + advance char size) width =
        width + (rest.map (advance · size)).sum := by
    intro rest
    induction rest with
    | nil => simp
    | cons char rest inductionHypothesis =>
        intro width
        rw [List.foldl_cons, inductionHypothesis, List.map_cons, List.sum_cons, add_assoc]
  exact (peeled run 0).trans (zero_add _)

/-- Sums of advances add up: no advance is negative, so that taking off what has been added
never falls below zero. -/
theorem addsUp_of_nonneg {metrics : GlyphMetrics ℚ}
    (widths : metrics.runWidth = sumOfAdvances metrics.advance)
    (nonneg : ∀ char, 0 ≤ metrics.advance char size) : metrics.AddsUp size := by
  have width : ∀ run, metrics.runWidth run size = (run.map (metrics.advance · size)).sum := by
    intro run
    rw [widths, sumOfAdvances_eq_sum]
  have append : ∀ first second, metrics.runWidth (first ++ second) size =
      metrics.runWidth first size + metrics.runWidth second size := by
    intro first second
    rw [width, width, width, List.map_append, List.sum_append]
  exact {
    nil := width []
    singleton := by
      intro char
      rw [width, List.map_singleton, List.sum_singleton]
    append
    takenOff := by
      intro first second
      have some : 0 ≤ metrics.runWidth first size := by
        rw [width]
        exact sum_advances_nonneg nonneg first
      rw [append]
      change Coordinate.clampToZero (_ + _ - _ : ℚ) = _
      rw [add_sub_cancel_right, Coordinate.clampToZero_of_nonneg some] }

end GlyphMetrics

namespace Editor

variable {editor : Editor ℚ} {draft : Draft}

theorem Shows.size_le (shows : editor.Shows draft) : editor.lines.size ≤ Word.largest + 1 := by
  have length := length_flow_false draft.lines
  have bounded := shows.bounded
  have words := shows.words
  rw [shows.size]
  rw [Draft.text, length, joinedLength, separatorLength] at bounded
  omega

/-- There are never more lines than a word counts, so that clamping to the words is not
felt. -/
theorem Shows.le_lineAtY_iff (shows : editor.Shows draft)
    (positive : 0 < editor.lines.layout.lineHeight) {row : ℕ} (inside : row < editor.lines.size)
    (y : ℚ) :
    row ≤ editor.lines.lineAtY y ↔ row = 0 ∨ editor.lines.layout.lineOrigin row ≤ y := by
  have words := shows.size_le
  exact Layout.le_lineAtY_iff positive inside (by omega) y

theorem Shows.lineAtY_lt (shows : editor.Shows draft) (y : ℚ) :
    editor.lines.lineAtY y < editor.lines.size := by
  have some := draft.row_lt_length_lines
  rw [LineTable.lineAtY, shows.size]
  exact EditorCore.Editor.lineAtY_lt (by omega) editor.lines.layout y

/-- A height is in a line's slot, or the line has no line on that side of it. -/
theorem Shows.lineAtY_eq_iff (shows : editor.Shows draft)
    (positive : 0 < editor.lines.layout.lineHeight) {row : ℕ} (inside : row < editor.lines.size)
    (y : ℚ) :
    editor.lines.lineAtY y = row ↔
      (row = 0 ∨ editor.lines.layout.lineOrigin row ≤ y) ∧
        (row + 1 = editor.lines.size ∨
          y < editor.lines.layout.lineOrigin row + editor.lines.layout.lineHeight) := by
  have last := shows.lineAtY_lt y
  rw [← shows.le_lineAtY_iff positive inside]
  by_cases more : row + 1 < editor.lines.size
  · have beyond := shows.le_lineAtY_iff positive more y
    rw [Layout.lineOrigin_succ] at beyond
    have upper : y < editor.lines.layout.lineOrigin row + editor.lines.layout.lineHeight ↔
        ¬ row + 1 ≤ editor.lines.lineAtY y := by
      rw [beyond, or_iff_right (Nat.succ_ne_zero row), not_le]
    rw [upper]
    omega
  · have only : row + 1 = editor.lines.size := by omega
    rw [or_iff_left_of_imp fun _ => only]
    omega

/-- A new editor of a user who has chosen nothing, on a page of fractions. -/
def standardExact : Editor ℚ :=
  ofSettings Settings.standard (GlyphMetrics.monospace GlyphMetrics.standardCell)

theorem reachable_standardExact : standardExact.Reachable := by
  have creates :
      create Settings.standard (GlyphMetrics.monospace GlyphMetrics.standardCell) =
        .ok standardExact :=
    rfl
  exact .created (by decide) creates

section Run

variable {last : Editor ℚ} {calls : List (Call ℚ)} {answers : List Answer}
  (runs : standardExact.run calls = .ok (last, answers))

include runs

theorem widths_of_run :
    last.metrics.runWidth = GlyphMetrics.sumOfAdvances last.metrics.advance := by
  rw [(reachable_standardExact.fixed_of_run runs).1]
  rfl

/-- Glyphs of fixed width advance; breaks stay where they are. -/
theorem advance_of_run (char : Char) :
    last.advance char = if isBreak char then 0 else 10 := by
  rw [advance, (reachable_standardExact.fixed_of_run runs).1]
  rfl

theorem advance_nonneg_of_run (char : Char) : 0 ≤ last.advance char := by
  rw [advance_of_run runs]
  split <;> norm_num

theorem lineHeight_pos_of_run : 0 < last.options.lineHeight := by
  rw [(reachable_standardExact.fixed_of_run runs).2]
  decide +kernel

end Run

end Editor

end EditorCore
