import EditorCore.Editor.Splice
import EditorCore.Proofs.LineTable
import EditorCore.Proofs.Upkeep

/-!
Contract: the four changes of text, lines and caret, as changes of a draft.

Owns:
- `Editor.changed`, which all four changes have in common, and when it is laid
  out by a draft;
- for each change, the editor that it gives when there is room, which draft that
  is laid out by, and that nothing else changes;
- the same for streaming pieces, whose refusals after the first change are never
  reached.

Does not own: tokens and indentation of the lines that a change touches.
-/

namespace EditorCore

namespace Editor

variable {κ : Type} {editor : Editor κ} {draft : Draft}

/-! ## The text -/

/-- A run put at the caret stands between what was on its sides. -/
theorem Holds.toList_spliced (holds : editor.Holds draft) (run : List Char) :
    (editor.buffer.spliced editor.cursor.caret run).toList =
      draft.leading ++ run ++ draft.trailing := by
  rw [Buffer.toList_spliced, holds.text, draft.text_eq, holds.caret, ← draft.length_leading,
    List.take_left, List.drop_left]

theorem Holds.caret_le_length (holds : editor.Holds draft) :
    editor.cursor.caret ≤ editor.buffer.length := by
  rw [holds.caret, holds.length, draft.length_text]
  exact Nat.le_add_right _ _

/-- An editor with another text, other lines and the caret elsewhere. -/
def changed (editor : Editor κ) (buffer : Buffer) (lines : LineTable κ) (row caret : Nat) (x : κ) :
    Editor κ :=
  { editor with buffer, lines, cursor := { editor.cursor with caret, line := row, x } }

section Changed

variable {buffer : Buffer} {lines : LineTable κ} {row caret : Nat} {x : κ}

theorem surroundings_changed (capacity : buffer.capacity = editor.buffer.capacity)
    (layout : lines.layout = editor.lines.layout) :
    (editor.changed buffer lines row caret x).surroundings = editor.surroundings := by
  simp only [surroundings, look, changed, capacity, layout]

/-- Changing buffer, table and caret together gives an editor that holds another draft. -/
theorem Holds.changed {target : Draft} (holds : editor.Holds draft) (lines : LineTable κ) (x : κ)
    (text : buffer.toList = target.text) (capacity : buffer.capacity = editor.buffer.capacity)
    (place : row = target.row) (offset : caret = target.offset)
    (bounded : target.text.length ≤ editor.buffer.capacity) :
    (editor.changed buffer lines row caret x).Holds target where
  text
  row := place
  caret := offset
  bounded := Nat.le_trans bounded (Nat.le_of_eq capacity.symm)
  words := Nat.le_trans (Nat.le_of_eq capacity) holds.words

theorem refreshX_changed (editor : Editor κ) (buffer : Buffer) (caret : Nat) (x : κ)
    {line : Line κ} (found : lines.get row = .ok line) :
    ∃ fresh, (editor.changed buffer lines row caret x).refreshX =
      .ok (editor.changed buffer lines row caret fresh) := by
  refine ⟨(editor.changed buffer lines row caret x).widthOf line.start caret, ?_⟩
  rw [refreshX, currentLine, Editor.changed, found]
  rfl

variable [Coordinate κ]

/-- A changed editor is laid out by a draft when the new table and the spans in it
are. -/
theorem Holds.laid {other : List (Line κ)} {fresh : Line κ} {target : Draft}
    (holds : (editor.changed buffer lines row caret x).Holds target)
    (layout : lines.layout = editor.lines.layout)
    (table : lines.lines = other ++ fresh :: ruled editor.look.rule false (target.row + 1)
      (target.stop + separatorLength) target.below)
    (upperOutline : other.map Line.outline =
      ruled (slot editor.lines.layout) true 0 0 target.above)
    (lineOutline : fresh.outline =
      slot editor.lines.layout target.row target.start target.current false) :
    (editor.changed buffer lines row caret x).Laid other fresh target where
  toHolds := holds
  table := by
    have look : (editor.changed buffer lines row caret x).look = editor.look := by
      simp only [look, Editor.changed, layout]
    rw [look]
    exact table
  upper_outline := by
    change _ = ruled (slot lines.layout) true 0 0 target.above
    rw [layout]
    exact upperOutline
  line_outline := by
    change _ = slot lines.layout target.row target.start target.current false
    rw [layout]
    exact lineOutline

end Changed

/-! ## Lines below the caret's -/

variable [Coordinate κ]

/-- Lines below move on with the text as long as words hold its length. -/
theorem map_shift_below (look : Look κ) (draft : Draft) (index distance : Nat)
    (fits : draft.text.length + distance ≤ Word.largest) :
    (ruled look.rule false index (draft.stop + separatorLength) draft.below).map
        (Line.shift distance) =
      ruled look.rule false index (draft.stop + separatorLength + distance) draft.below := by
  by_cases last : draft.below = []
  · rw [last]
    rfl
  · apply map_shift_ruled
    rw [← draft.length_text_eq_below last]
    exact fits

theorem map_shift_neg_below (look : Look κ) (draft : Draft) (index place distance : Nat)
    (reach : place + distance = draft.stop + separatorLength)
    (fits : draft.text.length ≤ Word.largest) :
    (ruled look.rule false index (draft.stop + separatorLength) draft.below).map
        (Line.shift (-(distance : Int))) =
      ruled look.rule false index place draft.below := by
  rw [← reach]
  by_cases last : draft.below = []
  · rw [last]
    rfl
  · apply map_shift_neg_ruled
    rw [reach, ← draft.length_text_eq_below last]
    exact fits

section Laid

variable {upper : List (Line κ)} {line : Line κ}

theorem Laid.row_eq (laid : editor.Laid upper line draft) : editor.cursor.line = upper.length :=
  laid.row.trans laid.length_upper.symm

/-! ## Putting a run -/

/-- A run lengthens the line of the caret and moves the lines below. -/
theorem Laid.insertRun_eq (laid : editor.Laid upper line draft) {run : List Char}
    (some : run ≠ []) (fits : draft.text.length + run.length ≤ editor.buffer.capacity) :
    ∃ lines x,
      editor.insertRun run =
          .ok (.ok (editor.changed (editor.buffer.spliced editor.cursor.caret run) lines
            editor.cursor.line (editor.cursor.caret + run.length) x)) ∧
        lines.layout = editor.lines.layout ∧
        lines.lines = upper ++ { line with stop := line.stop + run.length } ::
          ruled editor.look.rule false (draft.row + 1)
            ((draft.typed run).stop + separatorLength) draft.below := by
  have words := laid.words
  have inserted : editor.buffer.insert editor.cursor.caret run =
      .ok (.ok (editor.buffer.spliced editor.cursor.caret run)) :=
    Buffer.insert_of_fits (by rw [laid.length]; exact fits) laid.caret_le_length
  have below : draft.stop + separatorLength + run.length =
      (draft.typed run).stop + separatorLength := by
    rw [Draft.stop_typed]
    omega
  refine ⟨(editor.lines.update editor.cursor.line fun line =>
      { line with stop := line.stop + run.length }).shiftFrom (editor.cursor.line + 1) run.length,
    editor.cursor.x + editor.metrics.runWidth run editor.options.textSize, ?_, rfl, ?_⟩
  · rw [Editor.insertRun, if_neg some, inserted]
    rfl
  · rw [laid.row_eq, LineTable.shiftFrom_append_cons (LineTable.update_append_cons laid.table _),
      map_shift_below _ _ _ _ (by omega), below]

/-- A run that fits is put at the caret. -/
theorem Laid.insertRun (laid : editor.Laid upper line draft) (run : List Char)
    (fits : draft.text.length + run.length ≤ editor.buffer.capacity) :
    ∃ next grown, editor.insertRun run = .ok (.ok next) ∧
      next.Laid upper grown (draft.typed run) ∧ next.surroundings = editor.surroundings := by
  by_cases empty : run = []
  · subst empty
    refine ⟨editor, line, if_pos rfl, ?_, rfl⟩
    rwa [Draft.typed_nil]
  · obtain ⟨lines, x, runs, layout, table⟩ := laid.insertRun_eq empty fits
    have text : (editor.buffer.spliced editor.cursor.caret run).toList =
        (draft.typed run).text := by
      rw [Draft.text_eq, Draft.leading_typed, Draft.trailing_typed]
      exact laid.toList_spliced run
    have caret : editor.cursor.caret + run.length = (draft.typed run).offset := by
      rw [Draft.offset_typed, ← laid.caret]
    have bounded : (draft.typed run).text.length ≤ editor.buffer.capacity := by
      rw [Draft.length_text_typed]
      exact fits
    have stop : line.stop + run.length = (draft.typed run).stop := by
      rw [Draft.stop_typed, ← laid.line_stop]
    have holds := laid.toHolds.changed lines x text rfl laid.row caret bounded
    exact ⟨_, _, runs,
      holds.laid layout table laid.upper_outline (outline_of_stop laid.line_outline stop false),
      surroundings_changed rfl layout⟩

/-! ## Splitting -/

/-- A split ends the line at the caret and starts another behind the separator. -/
theorem Laid.splitLine_eq (laid : editor.Laid upper line draft)
    (fits : draft.text.length + separatorLength ≤ editor.buffer.capacity) :
    ∃ lines,
      editor.splitLine =
          .ok (.ok (editor.changed (editor.buffer.spliced editor.cursor.caret separator) lines
            (upper.length + 1) (editor.cursor.caret + separatorLength) 0)) ∧
        lines.layout = editor.lines.layout ∧
        lines.lines = upper ++
          { line with
            stop := editor.cursor.caret, indentEnd := min line.indentEnd editor.cursor.caret } ::
          Line.bare (upper.length + 1) (editor.cursor.caret + separatorLength)
            (line.stop + separatorLength) (editor.lines.layout.lineOrigin (upper.length + 1)) ::
          ruled editor.look.rule false (upper.length + 1 + 1)
            (draft.stop + separatorLength + separatorLength) draft.below := by
  have words := laid.words
  have inText := draft.stop_le_length_text
  have inserted : editor.buffer.insert editor.cursor.caret separator =
      .ok (.ok (editor.buffer.spliced editor.cursor.caret separator)) :=
    Buffer.insert_of_fits (by rw [laid.length]; exact fits) laid.caret_le_length
  have inside : line.contains editor.cursor.caret = true := by
    rw [Line.contains, laid.line_start, laid.line_stop, laid.caret, Bool.and_eq_true]
    exact ⟨decide_eq_true (Nat.le_add_right _ _), decide_eq_true draft.offset_le_stop⟩
  obtain ⟨lines, splits, table, layout⟩ :=
    LineTable.split_append_cons laid.table inside (by rw [laid.line_stop]; omega)
  rw [map_shift_below _ _ _ _ (by omega), stamped_ruled] at table
  rw [← laid.row_eq] at splits
  refine ⟨lines, ?_, layout, table⟩
  have found := LineTable.get_succ_append_cons table
  rw [Editor.splitLine, inserted, ← laid.row_eq]
  simp only [bind, Except.bind, splits]
  rw [laid.row_eq, found]
  rfl

/-- A separator that fits is put at the caret, which moves to the new line. -/
theorem Laid.splitLine (laid : editor.Laid upper line draft)
    (fits : draft.text.length + separatorLength ≤ editor.buffer.capacity) :
    ∃ next cut opened, editor.splitLine = .ok (.ok next) ∧
      next.Laid (upper ++ [cut]) opened draft.opened ∧
      next.surroundings = editor.surroundings := by
  obtain ⟨lines, splits, layout, table⟩ := laid.splitLine_eq fits
  have row : upper.length + 1 = draft.opened.row := by
    rw [Draft.row_opened, ← laid.length_upper]
  have caret : editor.cursor.caret + separatorLength = draft.opened.offset := by
    rw [Draft.offset_opened, ← laid.caret]
  have text : (editor.buffer.spliced editor.cursor.caret separator).toList =
      draft.opened.text := by
    rw [Draft.text_eq, Draft.leading_opened, Draft.trailing_opened]
    exact laid.toList_spliced separator
  have bounded : draft.opened.text.length ≤ editor.buffer.capacity := by
    rw [Draft.length_text_opened]
    exact fits
  have stop : line.stop + separatorLength = draft.opened.stop := by
    rw [Draft.stop_opened, ← laid.line_stop]
  have start : editor.cursor.caret + separatorLength = draft.opened.start := by
    rw [Draft.start_opened, ← laid.caret]
  rw [List.append_cons, row, ← Draft.stop_opened] at table
  have upperOutline :
      (upper ++ [{ line with
        stop := editor.cursor.caret
        indentEnd := min line.indentEnd editor.cursor.caret }]).map Line.outline =
      ruled (slot editor.lines.layout) true 0 0 (draft.above ++ [draft.before]) := by
    rw [List.map_append, laid.upper_outline, List.map_singleton,
      outline_of_stop laid.line_outline laid.caret true, ruled_true_append, Nat.zero_add,
      Nat.zero_add]
    rfl
  have lineOutline :
      (Line.bare draft.opened.row (editor.cursor.caret + separatorLength)
        (line.stop + separatorLength) (editor.lines.layout.lineOrigin draft.opened.row)).outline =
      slot editor.lines.layout draft.opened.row draft.opened.start draft.opened.current false := by
    rw [slot, ← Draft.stop, ← stop, ← start]
    rfl
  have holds := laid.toHolds.changed lines 0 text rfl row caret bounded
  exact ⟨_, _, _, splits, holds.laid layout table upperOutline lineOutline,
    surroundings_changed rfl layout⟩

/-! ## Removing -/

/-- Removing characters shortens the line of the caret and moves the lines below. -/
theorem Laid.removeBeforeCaret_eq (laid : editor.Laid upper line draft) {count : Nat}
    (inside : count ≤ draft.column) :
    ∃ lines x,
      editor.removeBeforeCaret count =
          .ok (editor.changed
            (editor.buffer.removeRange (editor.cursor.caret - count) editor.cursor.caret) lines
            editor.cursor.line (editor.cursor.caret - count) x) ∧
        lines.layout = editor.lines.layout ∧
        lines.lines = upper ++ { line with stop := line.stop - count } ::
          ruled editor.look.rule false (draft.row + 1)
            ((draft.shortened count).stop + separatorLength) draft.below := by
  have words := laid.words
  have bounded := laid.bounded
  have inText := draft.stop_le_length_text
  have onLine := draft.offset_le_stop
  have stops := draft.stop_shortened inside
  have fromStart : draft.start + count ≤ draft.offset := Nat.add_le_add_left inside _
  have reaches : ¬ editor.cursor.caret < line.start + count := by
    rw [laid.caret, laid.line_start]
    omega
  have stop : Word.sub line.stop count = .ok (line.stop - count) :=
    Word.sub_of_le (by rw [laid.line_stop]; omega)
  refine ⟨(editor.lines.update editor.cursor.line fun old =>
      { old with stop := line.stop - count }).shiftFrom (editor.cursor.line + 1) (-(count : Int)),
    Coordinate.clampToZero (editor.cursor.x -
      editor.widthOf (editor.cursor.caret - count) editor.cursor.caret), ?_, rfl, ?_⟩
  · unfold Editor.removeBeforeCaret
    simp only [laid.currentLine_eq, bind, Except.bind, reaches, if_false, stop]
    rfl
  · rw [laid.row_eq, LineTable.shiftFrom_append_cons (LineTable.update_append_cons laid.table _),
      map_shift_neg_below _ _ _ ((draft.shortened count).stop + separatorLength) _ (by omega)
        (by omega)]

/-- Characters before the caret on its line are removed. -/
theorem Laid.removeBeforeCaret (laid : editor.Laid upper line draft) {count : Nat}
    (positive : 0 < count) (inside : count ≤ draft.column) :
    ∃ next shrunk, editor.removeBeforeCaret count = .ok next ∧
      next.Laid upper shrunk (draft.shortened count) ∧
      next.surroundings = editor.surroundings := by
  obtain ⟨lines, x, removes, layout, table⟩ := laid.removeBeforeCaret_eq inside
  have capacity := editor.buffer.capacity_removeRange (editor.cursor.caret - count)
    editor.cursor.caret
  have fromStart : draft.start + count ≤ draft.offset := Nat.add_le_add_left inside _
  have forward : draft.offset - count < draft.offset := by omega
  have text : (editor.buffer.removeRange (editor.cursor.caret - count)
      editor.cursor.caret).toList = (draft.shortened count).text := by
    rw [Buffer.toList_removeRange, laid.caret, if_pos forward, laid.text, Draft.text_eq,
      Draft.text_eq, Draft.leading_shortened draft inside, Draft.trailing_shortened,
      List.take_append_of_le_length (by rw [Draft.length_leading]; omega),
      ← draft.length_leading, List.drop_left]
  have caret : editor.cursor.caret - count = (draft.shortened count).offset := by
    rw [laid.caret, draft.offset_shortened inside]
  have bounded : (draft.shortened count).text.length ≤ editor.buffer.capacity :=
    Nat.le_trans (draft.length_text_shortened count) laid.bounded
  have stop : line.stop - count = (draft.shortened count).stop := by
    have stops := draft.stop_shortened inside
    rw [laid.line_stop]
    omega
  have holds := laid.toHolds.changed lines x text capacity laid.row caret bounded
  exact ⟨_, _, removes,
    holds.laid layout table laid.upper_outline (outline_of_stop laid.line_outline stop false),
    surroundings_changed capacity layout⟩

/-! ## Folding -/

section Folding

variable {above : Line κ} {higher : List (List Char)} {last : List Char}

/-- The line above the caret's has the span of the last text above. -/
theorem Laid.outline_above (laid : editor.Laid (upper ++ [above]) line draft)
    (split : draft.above = higher ++ [last]) :
    upper.map Line.outline = ruled (slot editor.lines.layout) true 0 0 higher ∧
      above.outline =
        slot editor.lines.layout higher.length (flow true higher).length last true := by
  have outlines := laid.upper_outline
  rw [List.map_append, split, ruled_true_append, List.map_singleton, Nat.zero_add,
    Nat.zero_add] at outlines
  obtain ⟨upperOutline, aboveOutline⟩ := List.append_inj' outlines rfl
  exact ⟨upperOutline, List.singleton_inj.mp aboveOutline⟩

/-- Merging puts the line of the caret onto the one above and takes the separator out. -/
theorem Laid.mergeLine_eq (laid : editor.Laid (upper ++ [above]) line draft)
    (split : draft.above = higher ++ [last]) :
    ∃ lines x,
      editor.mergeLine =
          .ok (editor.changed (editor.buffer.removeRange above.stop (above.stop + separatorLength))
            lines upper.length above.stop x) ∧
        lines.layout = editor.lines.layout ∧
        lines.lines = upper ++ { above with stop := line.stop - separatorLength } ::
          ruled editor.look.rule false (upper.length + 1)
            ((draft.foldedOnto higher last).stop + separatorLength) draft.below := by
  have words := laid.words
  have bounded := laid.bounded
  have inText := draft.stop_le_length_text
  have stops := draft.stop_foldedOnto split
  have shape : editor.lines.lines = upper ++ above :: line :: ruled editor.look.rule false
      (draft.row + 1) (draft.stop + separatorLength) draft.below := by
    rw [laid.table, List.append_assoc]
    rfl
  have row : editor.cursor.line = upper.length + 1 := by
    rw [laid.row_eq, List.length_append, List.length_singleton]
  have room : separatorLength ≤ line.stop := by
    rw [laid.line_stop]
    omega
  obtain ⟨lines, merges, table, layout⟩ := LineTable.merge_append_cons shape room
  rw [map_shift_neg_below _ _ _ draft.stop separatorLength rfl (by omega), stamped_ruled,
    ← stops] at table
  obtain ⟨x, refreshes⟩ := editor.refreshX_changed
    (editor.buffer.removeRange above.stop (above.stop + separatorLength)) above.stop
    editor.cursor.x (LineTable.get_append_cons table)
  refine ⟨lines, x, ?_, layout, table⟩
  unfold Editor.mergeLine
  rw [row]
  simp only [merges, bind, Except.bind]
  rw [if_neg (Nat.succ_ne_zero _), Nat.add_sub_cancel, LineTable.get_append_cons shape]
  exact refreshes

/-- The separator above the caret's line is removed and the line is folded into
the one above. -/
theorem Laid.mergeLine (laid : editor.Laid (upper ++ [above]) line draft)
    (split : draft.above = higher ++ [last]) (atStart : draft.before = []) :
    ∃ next joined, editor.mergeLine = .ok next ∧
      next.Laid upper joined (draft.foldedOnto higher last) ∧
      next.surroundings = editor.surroundings := by
  obtain ⟨lines, x, merges, layout, table⟩ := laid.mergeLine_eq split
  obtain ⟨upperOutline, aboveOutline⟩ := laid.outline_above split
  have capacity := editor.buffer.capacity_removeRange above.stop (above.stop + separatorLength)
  have row : upper.length = higher.length := by
    have same := congrArg List.length upperOutline
    rwa [List.length_map, length_ruled] at same
  have caret : above.stop = (draft.foldedOnto higher last).offset :=
    congrArg Line.stop aboveOutline
  have forward : above.stop < above.stop + separatorLength := Nat.lt_add_of_pos_right (by decide)
  have text : (editor.buffer.removeRange above.stop (above.stop + separatorLength)).toList =
      (draft.foldedOnto higher last).text := by
    rw [Buffer.toList_removeRange, if_pos forward, laid.text, Draft.text_eq, Draft.text_eq,
      Draft.leading_foldedOnto split atStart, Draft.trailing_foldedOnto atStart, caret,
      ← Draft.length_leading, ← length_separator, ← List.length_append, List.drop_left,
      List.append_assoc, List.take_left]
  have shorter := draft.length_text_foldedOnto split atStart
  have bounded := laid.bounded
  have stop : line.stop - separatorLength = (draft.foldedOnto higher last).stop := by
    have stops := draft.stop_foldedOnto split
    rw [laid.line_stop]
    omega
  rw [row] at table
  have holds := laid.toHolds.changed lines x text capacity row caret (by omega)
  exact ⟨_, _, merges,
    holds.laid layout table upperOutline (outline_of_stop aboveOutline stop false),
    surroundings_changed capacity layout⟩

end Folding

/-! ## Streaming -/

/-- Pieces that fit together are put one after another, without a refusal. -/
theorem Laid.streamLines (pieces : List (List Char)) :
    ∀ {editor : Editor κ} {upper : List (Line κ)} {line : Line κ} {draft : Draft},
      editor.Laid upper line draft →
      draft.text.length + pieces.flatten.length + pieces.length * separatorLength ≤
        editor.buffer.capacity →
      ∃ next stale last, editor.streamLines pieces = .ok (next, .ok ()) ∧
        next.Laid (upper ++ stale) last (draft.streamed pieces) ∧
        next.surroundings = editor.surroundings := by
  induction pieces with
  | nil =>
      intro editor upper line draft laid _
      exact ⟨editor, [], line, rfl, by rwa [List.append_nil], rfl⟩
  | cons piece later inductionHypothesis =>
      intro editor upper line draft laid fits
      -- A piece takes what the check has counted for it: a separator and its characters.
      simp only [List.flatten_cons, List.length_append, List.length_cons, Nat.add_mul,
        Nat.one_mul] at fits
      obtain ⟨split, cut, fresh, splits, splitLaid, splitAround⟩ := laid.splitLine (by omega)
      have splitCapacity : split.buffer.capacity = editor.buffer.capacity :=
        congrArg Surroundings.capacity splitAround
      obtain ⟨filled, grown, fills, filledLaid, filledAround⟩ :=
        splitLaid.insertRun piece (by
          rw [splitCapacity, Draft.length_text_opened]
          omega)
      have filledCapacity : filled.buffer.capacity = split.buffer.capacity :=
        congrArg Surroundings.capacity filledAround
      obtain ⟨next, stale, last, streams, nextLaid, nextAround⟩ :=
        inductionHypothesis filledLaid (by
          rw [filledCapacity, splitCapacity, Draft.length_text_typed, Draft.length_text_opened]
          omega)
      refine ⟨next, cut :: stale, last, ?_, ?_, ?_⟩
      · rw [Editor.streamLines, splits]
        simp only [bind, Except.bind, fills]
        exact streams
      · simpa [Draft.streamed] using nextLaid
      · rw [nextAround, filledAround, splitAround]

/-- The capacity check of a whole text covers every change that streaming its
pieces makes. -/
theorem Laid.streamSegments (laid : editor.Laid upper line draft) {pieces : List (List Char)}
    (fits : draft.text.length + joinedLength pieces ≤ editor.buffer.capacity) :
    ∃ next stale last, editor.streamSegments pieces = .ok (next, .ok ()) ∧
      next.Laid (upper ++ stale) last (draft.pasted pieces) ∧
      next.surroundings = editor.surroundings := by
  cases pieces with
  | nil => exact ⟨editor, [], line, rfl, by rwa [List.append_nil], rfl⟩
  | cons first later =>
      simp only [joinedLength, List.flatten_cons, List.length_append, List.length_cons,
        Nat.add_sub_cancel] at fits
      obtain ⟨filled, grown, fills, filledLaid, filledAround⟩ :=
        laid.insertRun first (by omega)
      have filledCapacity : filled.buffer.capacity = editor.buffer.capacity :=
        congrArg Surroundings.capacity filledAround
      obtain ⟨next, stale, last, streams, nextLaid, nextAround⟩ :=
        Laid.streamLines later filledLaid (by
          rw [filledCapacity, Draft.length_text_typed]
          omega)
      refine ⟨next, stale, last, ?_, nextLaid, nextAround.trans filledAround⟩
      rw [Editor.streamSegments, fills]
      exact streams

end Laid

end Editor

end EditorCore
