import EditorCore.Proofs.Consistency
import EditorCore.Proofs.Positions

/-!
Contract: offsets and positions of a document correspond.

Owns:
- what halving a stretch of indices finds under a test that holds up to some index;
- `LineTable.Spans`, the line that an offset belongs to, and that looking up an offset in
  lines that stand in order finds that line and no other;
- for an editor, which offsets the line found has, that offsets of positions lead back to
  the positions, and where placing the caret leads.

Does not own: how lines come to stand in order.
-/

namespace EditorCore

/-! ## Looking up -/

namespace LineTable

variable {κ : Type} {table : LineTable κ} {offset index other : Nat}

/-- Halving finds the last index that satisfies a test: the first index of the stretch does,
no index past the stretch does, and below an index that does all do. -/
theorem bisect_last {test : Nat → Bool}
    (falls : ∀ lower upper, lower ≤ upper → test upper = true → test lower = true)
    (base size : Nat) (passes : test base = true)
    (fails : ∀ index, base + size ≤ index → test index = false) :
    test (bisect test base size) = true ∧
      ∀ index, bisect test base size < index → test index = false := by
  fun_induction bisect test base size with
  | case1 base size small =>
      refine ⟨passes, ?_⟩
      intro index beyond
      exact fails index (by omega)
  | case2 base size large half inductionHypothesis =>
      -- Either half keeps both facts about the stretch.
      have nextPasses : test (if test (base + half) then base + half else base) = true := by
        split
        · assumption
        · exact passes
      have nextFails : ∀ index, (if test (base + half) then base + half else base) +
          (size - half) ≤ index → test index = false := by
        intro index beyond
        split at beyond
        · exact fails index (by omega)
        · rename_i stops
          rw [Bool.eq_false_iff]
          intro reached
          exact stops (falls (base + half) index (by omega) reached)
      exact inductionHypothesis nextPasses nextFails

/-- An offset belongs to a line: it is not before the line's start and, if there is a next
line, before that line's start. -/
def Spans (table : LineTable κ) (offset index : Nat) : Prop :=
  ∃ line, table.get? index = some line ∧ line.start ≤ offset ∧
    ∀ next, table.get? (index + 1) = some next → offset < next.start

theorem Spans.start_le {line : Line κ} (spans : table.Spans offset index)
    (found : table.get? index = some line) : line.start ≤ offset := by
  obtain ⟨same, here, low, -⟩ := spans
  obtain rfl := Option.some.inj (here.symm.trans found)
  exact low

/-- There is a line at the front of the text, and no line starts before an earlier one. -/
structure InOrder (table : LineTable κ) : Prop where
  first : ∃ line, table.get? 0 = some line ∧ line.start = 0
  ascending : ∀ index other line later, index ≤ other → table.get? index = some line →
    table.get? other = some later → line.start ≤ later.start

theorem exists_get? (inside : index < table.size) : ∃ line, table.get? index = some line :=
  ⟨_, List.getElem?_eq_getElem inside⟩

theorem lt_size_of_get? {line : Line κ} (found : table.get? index = some line) :
    index < table.size :=
  (List.getElem?_eq_some_iff.mp found).1

/-- The test by which an offset is looked up. -/
def startsBy (table : LineTable κ) (offset index : Nat) : Bool :=
  (table.get? index).any fun line => line.start ≤ offset

theorem startsBy_iff :
    table.startsBy offset index = true ↔
      ∃ line, table.get? index = some line ∧ line.start ≤ offset := by
  simp only [startsBy, Option.any_eq_true, decide_eq_true_eq]

theorem lineAtOffset_eq_bisect (table : LineTable κ) (offset : Nat) :
    table.lineAtOffset offset = bisect (table.startsBy offset) 0 table.size := rfl

/-- Where a line starts by an offset, those above it do. -/
theorem InOrder.startsBy_of_le (inOrder : table.InOrder) (order : index ≤ other)
    (starts : table.startsBy offset other = true) : table.startsBy offset index = true := by
  obtain ⟨later, found, before⟩ := startsBy_iff.mp starts
  obtain ⟨line, earlier⟩ : ∃ line, table.get? index = some line :=
    exists_get? (Nat.lt_of_le_of_lt order (lt_size_of_get? found))
  have ascends := inOrder.ascending index other line later order earlier found
  exact startsBy_iff.mpr ⟨line, earlier, Nat.le_trans ascends before⟩

/-- Looking up an offset finds the line that it belongs to. -/
theorem InOrder.spans_lineAtOffset (inOrder : table.InOrder) (offset : Nat) :
    table.Spans offset (table.lineAtOffset offset) := by
  have passes : table.startsBy offset 0 = true := by
    obtain ⟨line, found, starts⟩ := inOrder.first
    exact startsBy_iff.mpr ⟨line, found, starts ▸ Nat.zero_le offset⟩
  have fails : ∀ index, 0 + table.size ≤ index → table.startsBy offset index = false := by
    intro index beyond
    rw [Bool.eq_false_iff]
    intro starts
    obtain ⟨line, found, -⟩ := startsBy_iff.mp starts
    have inside := lt_size_of_get? found
    omega
  obtain ⟨reached, beyond⟩ := bisect_last (fun _ _ => inOrder.startsBy_of_le) 0 table.size
    passes fails
  rw [← lineAtOffset_eq_bisect] at reached beyond
  obtain ⟨line, found, starts⟩ := startsBy_iff.mp reached
  refine ⟨line, found, starts, ?_⟩
  intro next follows
  apply Nat.lt_of_not_le
  intro starts
  have past := beyond _ (Nat.lt_succ_self _)
  rw [startsBy_iff.mpr ⟨next, follows, starts⟩] at past
  exact absurd past (by decide)

/-- No two lines span an offset. -/
theorem InOrder.le_of_spans (inOrder : table.InOrder) (spans : table.Spans offset index)
    (others : table.Spans offset other) : other ≤ index := by
  obtain ⟨-, -, -, before⟩ := spans
  obtain ⟨later, found, starts, -⟩ := others
  apply Nat.le_of_not_lt
  intro further
  obtain ⟨next, follows⟩ : ∃ next, table.get? (index + 1) = some next :=
    exists_get? (Nat.lt_of_le_of_lt further (lt_size_of_get? found))
  have order := inOrder.ascending (index + 1) other next later further follows found
  have ends := before next follows
  omega

/-- An offset belongs to one line. -/
theorem InOrder.lineAtOffset_eq (inOrder : table.InOrder) (spans : table.Spans offset index) :
    table.lineAtOffset offset = index :=
  have found := inOrder.spans_lineAtOffset offset
  Nat.le_antisymm (inOrder.le_of_spans spans found) (inOrder.le_of_spans found spans)

end LineTable

/-! ## Documents -/

/-- The column of an offset that stands at a column of the line. -/
theorem Line.columnOf_add {κ : Type} {line : Line κ} {column : Nat}
    (inside : line.start + column ≤ line.stop) :
    line.columnOf (line.start + column) = .ok column := by
  have width : line.length = .ok (line.stop - line.start) := Word.sub_of_le (by omega)
  rw [Line.columnOf, width, Nat.add_sub_cancel_left]
  exact congrArg Except.ok (Nat.min_eq_left (by omega))

namespace Editor

variable {κ : Type}

/-- An offset is between the two characters of a separator. -/
def CutsSeparator (editor : Editor κ) (offset : Nat) : Prop :=
  ∃ place, offset = place + 1 ∧ editor.buffer.charAt place = some '\r' ∧
    editor.buffer.charAt offset = some '\n'

section Consistent

variable {editor : Editor κ} (consistent : editor.Consistent) {offset index : Nat}
  {line : Line κ} (found : editor.lines.get? index = some line)

include consistent found in
theorem Consistent.start_le_stop : line.start ≤ line.stop := by
  obtain ⟨indented, ended⟩ := consistent.indentation index line found
  exact Nat.le_trans indented ended

include consistent in
/-- Lines of a document stand in order, since each starts past the separator of the one
before. -/
theorem Consistent.inOrder : editor.lines.InOrder where
  first := by
    obtain ⟨line, found⟩ := LineTable.exists_get? consistent.some_line
    exact ⟨line, found, consistent.first_start line found⟩
  ascending := by
    intro index other line later order found foundLater
    induction order generalizing later with
    | refl =>
        obtain rfl := Option.some.inj (found.symm.trans foundLater)
        exact Nat.le_refl _
    | @step middle order inductionHypothesis =>
        obtain ⟨between, foundBetween⟩ := LineTable.exists_get?
          (Nat.lt_of_succ_lt (LineTable.lt_size_of_get? foundLater))
        have earlier := inductionHypothesis between foundBetween
        have width := consistent.start_le_stop foundBetween
        have follows := consistent.adjacent middle between later foundBetween foundLater
        omega

include consistent found in
/-- An offset at which the caret may stand on a line belongs to that line. -/
theorem Consistent.spans_of_within (low : line.start ≤ offset) (high : offset ≤ line.stop) :
    editor.lines.Spans offset index := by
  refine ⟨line, found, low, ?_⟩
  intro next follows
  have adjacent := consistent.adjacent index line next found follows
  omega

include consistent found in
theorem Consistent.stop_le_length : line.stop ≤ editor.buffer.length := by
  by_cases more : index + 1 < editor.lines.size
  · have returns := (consistent.separators index line found more).1
    rw [Buffer.charAt_eq] at returns
    obtain ⟨inside, -⟩ := List.getElem?_eq_some_iff.mp returns
    rw [Buffer.length_toList] at inside
    exact Nat.le_of_lt inside
  · have within := LineTable.lt_size_of_get? found
    exact Nat.le_of_eq (consistent.last_stop index line found (by omega))

include consistent found in
/-- An offset on a line is inside no separator. -/
theorem Consistent.not_cutsSeparator (low : line.start ≤ offset) (high : offset ≤ line.stop) :
    ¬ editor.CutsSeparator offset := by
  rintro ⟨place, rfl, -, feeds⟩
  rcases Nat.lt_or_eq_of_le high with inside | atEnd
  · obtain ⟨char, here, -, notFeed⟩ := consistent.unbroken index line found _ low inside
    rw [feeds] at here
    exact notFeed (Option.some.inj here).symm
  · -- After a line there is a CR or nothing.
    by_cases more : index + 1 < editor.lines.size
    · have returns := (consistent.separators index line found more).1
      rw [← atEnd, feeds] at returns
      exact absurd returns (by decide)
    · have within := LineTable.lt_size_of_get? found
      have last := consistent.last_stop index line found (by omega)
      rw [Buffer.charAt_eq, atEnd, last, ← Buffer.length_toList,
        List.getElem?_eq_none (Nat.le_refl _)] at feeds
      exact absurd feeds nofun

include consistent found in
/-- Past the end of its line, an offset is inside the separator or past the text. -/
theorem Consistent.cutsSeparator_of_past (spans : editor.lines.Spans offset index)
    (past : line.stop < offset) :
    editor.CutsSeparator offset ∨ editor.buffer.length < offset := by
  have within := LineTable.lt_size_of_get? found
  by_cases more : index + 1 < editor.lines.size
  · left
    obtain ⟨next, follows⟩ := LineTable.exists_get? more
    obtain ⟨-, -, -, before⟩ := spans
    have adjacent := consistent.adjacent index line next found follows
    have ends := before next follows
    obtain rfl : offset = line.stop + 1 := by omega
    exact ⟨line.stop, rfl, consistent.separators index line found more⟩
  · right
    rw [← consistent.last_stop index line found (by omega)]
    exact past

include consistent found in
/-- The line that an offset belongs to has the offset, unless the offset is inside a
separator or past the text. -/
theorem Consistent.contains_iff (spans : editor.lines.Spans offset index) :
    line.contains offset = true ↔
      ¬ editor.CutsSeparator offset ∧ offset ≤ editor.buffer.length := by
  have low := spans.start_le found
  rw [Line.contains, Bool.and_eq_true, decide_eq_true_eq, decide_eq_true_eq]
  constructor
  · rintro ⟨-, high⟩
    exact ⟨consistent.not_cutsSeparator found low high,
      Nat.le_trans high (consistent.stop_le_length found)⟩
  · rintro ⟨whole, inText⟩
    refine ⟨low, Nat.le_of_not_lt ?_⟩
    intro past
    rcases consistent.cutsSeparator_of_past found spans past with cuts | beyond
    · exact whole cuts
    · exact absurd inText (Nat.not_le_of_lt beyond)

include consistent found in
theorem Consistent.lineAtOffset_eq (low : line.start ≤ offset) (high : offset ≤ line.stop) :
    editor.lines.lineAtOffset offset = index :=
  consistent.inOrder.lineAtOffset_eq (consistent.spans_of_within found low high)

include consistent in
theorem Consistent.lineAtOffset_caret :
    editor.lines.lineAtOffset editor.cursor.caret = editor.cursor.line := by
  obtain ⟨line, found, low, high⟩ := consistent.caret
  exact consistent.lineAtOffset_eq found low high

end Consistent

variable [Coordinate κ] {editor : Editor κ} {draft : Draft}

/-- Placing the caret at a line and a column leaves the lines as they are and puts it as near
as there is one. -/
theorem Shows.places_caret (shows : editor.Shows draft) (position : Position) :
    ∃ next, editor.moveToPosition position = .ok next ∧ next.lines = editor.lines ∧
      next.position = .ok {
        line := min position.line (editor.lines.size - 1)
        column := min position.column
          (editor.lineLength (min position.line (editor.lines.size - 1))) } := by
  obtain ⟨next, moves, settled⟩ := shows.moveToPosition position
  have some := draft.row_lt_length_lines
  obtain ⟨line, found⟩ :=
    draft.exists_line (min position.line (draft.lines.length - 1)) (by omega)
  have inside : (draft.nearest position).column ≤ line.length := by
    rw [← Draft.lengthOf_eq found]
    exact Nat.min_le_right _ _
  have look : next.look = editor.look := congrArg Surroundings.look settled.around
  refine ⟨next, moves, ?_, ?_⟩
  · exact settled.toRepresents.lines_eq shows.toRepresents (Draft.lines_goTo found) look
  · rw [settled.position_eq, Draft.position_goTo found inside, Draft.nearest, shows.size,
      shows.lineLength_eq]

/-- Offsets and positions correspond: every offset is looked up at the one line that it
belongs to, offsets of a line lead back to their columns, and the caret goes where it is
placed. -/
structure MatchesOffsets (editor : Editor κ) : Prop where
  found : ∀ offset, editor.lines.Spans offset (editor.lines.lineAtOffset offset)
  unique : ∀ offset index, editor.lines.Spans offset index →
    editor.lines.lineAtOffset offset = index
  contained : ∀ offset line, editor.lines.get? (editor.lines.lineAtOffset offset) = some line →
    (line.contains offset = true ↔
      ¬ editor.CutsSeparator offset ∧ offset ≤ editor.buffer.length)
  restored : ∀ row line column, editor.lines.get? row = some line →
    line.start + column ≤ line.stop →
      editor.lines.lineAtOffset (line.start + column) = row ∧
        line.columnOf (line.start + column) = .ok column
  placed : ∀ position : Position, ∃ next, editor.moveToPosition position = .ok next ∧
    next.lines = editor.lines ∧
      next.position = .ok {
        line := min position.line (editor.lines.size - 1)
        column := min position.column
          (editor.lineLength (min position.line (editor.lines.size - 1))) }
  caret : editor.lines.lineAtOffset editor.cursor.caret = editor.cursor.line

/-- Whatever calls have led to an editor, its offsets and positions correspond. -/
theorem offsets_match_positions (reachable : editor.Reachable) : editor.MatchesOffsets := by
  obtain ⟨draft, shows⟩ := reachable.shows
  have consistent := shows.consistent
  have inOrder := consistent.inOrder
  exact {
    found := inOrder.spans_lineAtOffset
    unique := fun offset index => inOrder.lineAtOffset_eq
    contained := fun offset line here =>
      consistent.contains_iff here (inOrder.spans_lineAtOffset offset)
    restored := fun row line column here inside =>
      ⟨consistent.lineAtOffset_eq here (Nat.le_add_right _ _) inside, Line.columnOf_add inside⟩
    placed := shows.places_caret
    caret := consistent.lineAtOffset_caret }

/-- A document with an empty line, after a step back has joined two others. -/
theorem offsets_match_positions_standard :
    ∃ editor answers,
      standard.run [.loadDocument "ab\n\n\nc", .moveToPosition { line := 2, column := 0 },
          .deleteChar] = .ok (editor, answers) ∧
        editor.MatchesOffsets := by
  obtain ⟨editor, answers, runs, reachable⟩ := reachable_standard.of_run
    [.loadDocument "ab\n\n\nc", .moveToPosition { line := 2, column := 0 }, .deleteChar]
    (by decide +kernel)
  exact ⟨editor, answers, runs, offsets_match_positions reachable⟩

end Editor

end EditorCore
