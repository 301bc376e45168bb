import EditorCore.Proofs.ExactPage
import EditorCore.Proofs.UpToDate

/-!
Contract: the lines that are drawn are those that meet the drawn range.

Owns:
- that a stretch with everything to be kept may be cut out before filtering;
- that the stretch between the lines at the top and at the bottom of a range is such a
  stretch, and lies in the table;
- what is drawn in a range, said by the places of all lines.

Does not own: tokens, or how lines are placed.
-/

namespace EditorCore

/-- Nothing is lost by cutting a list to a stretch before filtering it, if all that is kept
is in the stretch. -/
theorem filter_cut {α : Type} {keep : α → Bool} {items : List α} {first last : ℕ}
    (inside : ∀ index item, items[index]? = some item → keep item = true →
      first ≤ index ∧ index ≤ last) :
    ((items.take (last + 1)).drop first).filter keep = items.filter keep := by
  have split : ∀ (count : ℕ) (some : List α),
      (some.take count).filter keep ++ (some.drop count).filter keep = some.filter keep := by
    intro count some
    rw [← List.filter_append, List.take_append_drop]
  have front : ((items.take (last + 1)).take first).filter keep = [] := by
    rw [List.filter_eq_nil_iff, List.take_take]
    intro item member kept
    obtain ⟨index, found⟩ := List.mem_iff_getElem?.mp member
    rw [List.getElem?_take] at found
    split at found
    · have bounded := (inside index item found kept).1
      omega
    · exact absurd found nofun
  have back : (items.drop (last + 1)).filter keep = [] := by
    rw [List.filter_eq_nil_iff]
    intro item member kept
    obtain ⟨index, found⟩ := List.mem_iff_getElem?.mp member
    rw [List.getElem?_drop] at found
    have bounded := (inside _ item found kept).2
    omega
  have outer := split (last + 1) items
  have inner := split first (items.take (last + 1))
  rw [back, List.append_nil] at outer
  rw [front, List.nil_append, outer] at inner
  exact inner

namespace Editor

section

variable {editor : Editor ℚ} {draft : Draft} {top height bottom : ℚ}

/-- A line is met by a range if neither lies past the other. -/
theorem meets_iff (top bottom : ℚ) (line : Line ℚ) :
    editor.meets top bottom line = true ↔
      line.displayOrigin < bottom ∧
        top < line.displayOrigin + editor.lines.layout.lineHeight := by
  rw [meets, Bool.and_eq_true, Coordinate.before_iff, Coordinate.before_iff]

/-- The row of a height begins at or above the height, unless it is the first. -/
theorem Shows.lineAtY_mono (shows : editor.Shows draft)
    (positive : 0 < editor.lines.layout.lineHeight) (order : top ≤ bottom) :
    editor.lines.lineAtY top ≤ editor.lines.lineAtY bottom := by
  have inside := shows.lineAtY_lt top
  rw [shows.le_lineAtY_iff positive inside]
  exact ((shows.le_lineAtY_iff positive inside top).mp (Nat.le_refl _)).imp_right
    fun reached => le_trans reached order

/-- A line that meets a range is between the lines at its top and its bottom. -/
theorem Shows.between_of_meets (shows : editor.Shows draft)
    (positive : 0 < editor.lines.layout.lineHeight) {index : ℕ} {line : Line ℚ}
    (found : editor.lines.get? index = some line) (meets : editor.meets top bottom line = true) :
    editor.lines.lineAtY top ≤ index ∧ index ≤ editor.lines.lineAtY bottom := by
  have inside : index < editor.lines.size := (List.getElem?_eq_some_iff.mp found).1
  obtain ⟨starts, ends⟩ := (meets_iff top bottom line).mp meets
  rw [shows.upToDate.displayOrigin index line found] at starts ends
  constructor
  · -- Were the top in a later slot, that slot would begin above the range.
    apply Nat.le_of_not_lt
    intro later
    have more : index + 1 < editor.lines.size := Nat.lt_of_le_of_lt later (shows.lineAtY_lt top)
    have reached := (shows.le_lineAtY_iff positive more top).mp later
    rw [Layout.lineOrigin_succ] at reached
    exact absurd (reached.resolve_left (Nat.succ_ne_zero index)) (not_le.mpr ends)
  · exact (shows.le_lineAtY_iff positive inside bottom).mpr (.inr (le_of_lt starts))

/-- Drawing a range scans all lines. -/
theorem Shows.visibleLines_eq (shows : editor.Shows draft)
    (positive : 0 < editor.lines.layout.lineHeight) (some : 0 < height) (top : ℚ) :
    editor.visibleLines top height =
      .ok ((editor.lines.lines.filter (editor.meets top (top + height))).map editor.drawn) := by
  have order := shows.lineAtY_mono positive (le_add_of_nonneg_right (le_of_lt some) : top ≤ _)
  have bounded := shows.lineAtY_lt (top + height)
  have cut : ((editor.lines.lines.take (editor.lines.lineAtY (top + height) + 1)).drop
        (editor.lines.lineAtY top)).filter (editor.meets top (top + height)) =
      editor.lines.lines.filter (editor.meets top (top + height)) :=
    filter_cut fun index line found kept => shows.between_of_meets positive found kept
  have range : ¬ Coordinate.before 0 height = false := by
    rw [Bool.not_eq_false, Coordinate.before_iff]
    exact some
  rw [← cut]
  unfold visibleLines
  rw [if_neg range, if_neg (by omega), if_neg (by omega)]

/-- Lines are drawn with the index that they have in the table. -/
theorem Shows.drawn_eq (shows : editor.Shows draft) {index : ℕ} {line : Line ℚ}
    (found : editor.lines.get? index = some line) :
    editor.drawn line = {
      index
      text := editor.charsOf line
      tokens := line.tokens
      originY := line.displayOrigin
      isCurrent := decide (index = editor.cursor.line) } := by
  rw [drawn, shows.upToDate.index index line found]

theorem Shows.pairwise_index (shows : editor.Shows draft) :
    editor.lines.lines.Pairwise fun before after => before.index < after.index := by
  rw [List.pairwise_iff_getElem]
  intro index later inside laterInside order
  have place := shows.upToDate.index index _ (List.getElem?_eq_getElem inside)
  have laterPlace := shows.upToDate.index later _ (List.getElem?_eq_getElem laterInside)
  rwa [place, laterPlace]

theorem visibleLines_of_nonpos (empty : height ≤ 0) (top : ℚ) :
    editor.visibleLines top height = .ok [] := by
  have none : Coordinate.before 0 height = false := by
    rw [Bool.eq_false_iff, ne_eq, Coordinate.before_iff, not_lt]
    exact empty
  unfold visibleLines
  exact if_pos none

end

/-- What is drawn in a range is what a scan of the document finds in it, and the stretch of
the table that is looked at is always one. -/
structure DrawsScan (editor : Editor ℚ) (top height : ℚ) : Prop where
  nothing : height ≤ 0 → editor.visibleLines top height = .ok []
  stretch : 0 < height →
    editor.lines.lineAtY top ≤ editor.lines.lineAtY (top + height) ∧
      editor.lines.lineAtY (top + height) < editor.lines.size
  scan : 0 < height → ∃ rows, editor.visibleLines top height = .ok rows ∧
    (rows.map DrawnLine.index).Pairwise (· < ·) ∧
      ∀ row, row ∈ rows ↔ ∃ index line, editor.lines.get? index = some line ∧
        line.displayOrigin < top + height ∧
        line.displayOrigin + editor.lines.layout.lineHeight > top ∧
        row = {
          index
          text := editor.charsOf line
          tokens := line.tokens
          originY := line.displayOrigin
          isCurrent := decide (index = editor.cursor.line) }

/-- Whatever range is drawn, cutting the table at its top and its bottom loses no line that
meets it. -/
theorem visible_lines_match_scan {editor : Editor ℚ} (reachable : editor.Reachable)
    (positive : 0 < editor.options.lineHeight) (top height : ℚ) :
    editor.DrawsScan top height := by
  rw [← reachable.lineHeight_eq] at positive
  obtain ⟨draft, shows⟩ := reachable.shows
  refine ⟨fun empty => visibleLines_of_nonpos empty top, ?_, ?_⟩
  · intro some
    exact ⟨shows.lineAtY_mono positive (le_add_of_nonneg_right (le_of_lt some)),
      shows.lineAtY_lt _⟩
  · intro some
    refine ⟨_, shows.visibleLines_eq positive some top, ?_, ?_⟩
    · rw [List.map_map, List.pairwise_map]
      exact shows.pairwise_index.filter _
    · intro row
      rw [List.mem_map]
      constructor
      · rintro ⟨line, member, rfl⟩
        obtain ⟨inTable, meets⟩ := List.mem_filter.mp member
        obtain ⟨index, found⟩ := List.mem_iff_getElem?.mp inTable
        obtain ⟨starts, ends⟩ := (meets_iff top _ line).mp meets
        exact ⟨index, line, found, starts, ends, shows.drawn_eq found⟩
      · rintro ⟨index, line, found, starts, ends, rfl⟩
        have meets := (meets_iff top _ line).mpr ⟨starts, ends⟩
        exact ⟨line, List.mem_filter.mpr ⟨List.mem_of_getElem? found, meets⟩,
          shows.drawn_eq found⟩

/-- A range across the boundary of two slots of a document that has been moved. -/
theorem visible_lines_match_scan_standard :
    ∃ editor answers,
      standardExact.run [.loadDocument "a\nb\nc", .setOrigin 0 (-7)] = .ok (editor, answers) ∧
        0 < editor.options.lineHeight ∧ editor.DrawsScan 5 (15 / 2) := by
  obtain ⟨editor, answers, runs, reachable⟩ := reachable_standardExact.of_run
    [.loadDocument "a\nb\nc", .setOrigin 0 (-7)] (by decide +kernel)
  have positive := lineHeight_pos_of_run runs
  exact ⟨editor, answers, runs, positive, visible_lines_match_scan reachable positive _ _⟩

end Editor

end EditorCore
