import EditorCore.Proofs.Representation

/-!
Contract: upkeep brings every line up to date, and the common end of operations
cannot fail.

Owns:
- relexing the lines that an edit touched, which turns spans into lines;
- `finish` and `settle` on an editor that represents a draft, and `settle` after
  an edit that has touched some lines;
- `Settled`, what an operation has changed when it ends.

Does not own: which lines an edit touches.
-/

namespace EditorCore

namespace Editor

variable {κ : Type} {editor : Editor κ} {draft : Draft}

/-! ## Relexing -/

/-- The texts of stale lines lie between those of lines that were kept and those
of the lines below. -/
private theorem text_eq_stretch {kept stale : List (List Char)}
    (above : draft.above = kept ++ stale) :
    draft.text =
      flow true kept ++ flow (!draft.below.isEmpty) (stale ++ [draft.current]) ++
        flow false draft.below := by
  have lines : draft.lines = (kept ++ (stale ++ [draft.current])) ++ draft.below := by
    simp [Draft.lines, above]
  have follows : (!(stale ++ [draft.current]).isEmpty) = true := by cases stale <;> rfl
  rw [Draft.text, lines, flow_append, Bool.false_or, flow_append (!draft.below.isEmpty), follows,
    Bool.or_true]

private theorem ruled_eq_stretch {make : Nat → Nat → List Char → Bool → Line κ}
    {kept stale : List (List Char)} (above : draft.above = kept ++ stale) :
    ruled make false 0 0 draft.lines =
      ruled make true 0 0 kept ++
        ruled make (!draft.below.isEmpty) kept.length (flow true kept).length
          (stale ++ [draft.current]) ++
        ruled make false (draft.row + 1) (draft.stop + separatorLength) draft.below := by
  have lines : draft.lines = (kept ++ (stale ++ [draft.current])) ++ draft.below := by
    simp [Draft.lines, above]
  have rows : 0 + (kept ++ (stale ++ [draft.current])).length = draft.row + 1 := by
    simp [Draft.row, above, Nat.add_assoc]
  have offset : 0 + (flow true (kept ++ (stale ++ [draft.current]))).length =
      draft.stop + separatorLength := by
    simp [Draft.stop, Draft.start, above, flow, Nat.add_assoc]
  have follows : (!(stale ++ [draft.current]).isEmpty) = true := by cases stale <;> rfl
  rw [lines, ruled_append, rows, offset, Bool.false_or, ruled_append 0 0 kept, follows,
    Bool.or_true, Nat.zero_add, Nat.zero_add]

variable [Coordinate κ]

/-- Spans of lines above that begin with kept lines go on with those of the stale
texts. -/
private theorem outline_stale {kept stale : List (List Char)} {dirty : List (Line κ)}
    {line : Line κ} (above : draft.above = kept ++ stale)
    (laid : editor.Laid (ruled editor.look.rule true 0 0 kept ++ dirty) line draft) :
    (dirty ++ [line]).map Line.outline =
      ruled (slot editor.lines.layout) (!draft.below.isEmpty) kept.length
        (flow true kept).length (stale ++ [draft.current]) := by
  have whole := laid.upper_outline
  rw [List.map_append, map_outline_ruled, above, ruled_true_append] at whole
  have upper := (List.append_inj whole (by simp)).2
  have row : kept.length + stale.length = draft.row := by simp [Draft.row, above]
  have start : (flow true kept).length + (flow true stale).length = draft.start := by
    simp [Draft.start, above]
  rw [List.map_append, upper, List.map_singleton, laid.line_outline, ruled_append_cons, row, start,
    Nat.zero_add, Nat.zero_add]
  rfl

/-- Rebuilding the caret's line and the stale lines above it brings the whole
table up to date. -/
theorem Laid.rebuiltRange {kept stale : List (List Char)} {dirty : List (Line κ)} {line : Line κ}
    (above : draft.above = kept ++ stale)
    (laid : editor.Laid (ruled editor.look.rule true 0 0 kept ++ dirty) line draft)
    (word : String) :
    (editor.rebuiltRange kept.length (draft.row + 1 - kept.length) word).Represents draft where
  toHolds := laid.toHolds.of_same rfl rfl rfl
  table := by
    have outlines := outline_stale above laid
    have rows : kept.length + stale.length = draft.row := by simp [Draft.row, above]
    have size : editor.lines.lines.length = draft.row + 1 + draft.below.length := laid.size
    have shape : editor.lines.lines =
        ruled editor.look.rule true 0 0 kept ++ (dirty ++ [line]) ++
          ruled editor.look.rule false (draft.row + 1) (draft.stop + separatorLength)
            draft.below := by
      rw [laid.table]
      simp
    have dirtyLength : (dirty ++ [line]).length = stale.length + 1 := by
      have same := congrArg List.length outlines
      simpa using same
    have reach : if (!draft.below.isEmpty) = true then
          kept.length + (stale ++ [draft.current]).length < editor.lines.lines.length
        else kept.length + (stale ++ [draft.current]).length = editor.lines.lines.length := by
      rw [size, ← rows, List.length_append, List.length_singleton]
      cases draft.below <;> simp [Nat.add_assoc]
    have rebuilds := mapIdx_rebuilt (!draft.below.isEmpty) editor.lines.lines.length
      (stale ++ [draft.current]) (dirty ++ [line]) kept.length (flow true kept)
      (flow false draft.below) outlines (laid.text.trans (text_eq_stretch above)) reach
    -- What stands around the stretch is up to date and is left alone.
    have stretch := mapIdx_stretch
      (fun index line => editor.rebuilt (decide (index + 1 < editor.lines.lines.length)) line)
      (ruled editor.look.rule true 0 0 kept) (dirty ++ [line])
      (ruled editor.look.rule false (draft.row + 1) (draft.stop + separatorLength) draft.below)
    have count : (dirty ++ [line]).length = draft.row + 1 - kept.length := by omega
    rw [← shape, length_ruled, count, rebuilds, ← ruled_eq_stretch above] at stretch
    exact stretch

/-- Relexing from the first stale line down to the caret's brings the whole table
up to date. -/
theorem Laid.relexRange {kept stale : List (List Char)} {dirty : List (Line κ)} {line : Line κ}
    (above : draft.above = kept ++ stale)
    (laid : editor.Laid (ruled editor.look.rule true 0 0 kept ++ dirty) line draft) :
    (editor.relexRange kept.length draft.row).Represents draft := by
  obtain ⟨word, ranges⟩ := editor.relexRange_eq kept.length draft.row
  rw [ranges]
  exact Laid.rebuiltRange above laid word

/-- Rebuilding one line is rebuilding a range of one. -/
theorem relexLine_eq_relexRange (editor : Editor κ) (index : Nat) :
    editor.relexLine index = editor.relexRange index index := by
  rw [relexRange, Nat.add_sub_cancel_left]
  rfl

/-- Relexing two lines one after the other relexes them together. -/
theorem relexLine_relexLine (editor : Editor κ) (index : Nat) :
    (editor.relexLine index).relexLine (index + 1) = editor.relexRange index (index + 1) := by
  rw [relexRange, Nat.add_assoc, Nat.add_sub_cancel_left]
  rfl

/-- A table that is laid out has the outlines of the draft's lines. -/
theorem Laid.outlines {upper : List (Line κ)} {line : Line κ}
    (laid : editor.Laid upper line draft) :
    editor.lines.lines.map Line.outline =
      ruled (slot editor.lines.layout) false 0 0 draft.lines := by
  rw [laid.table, List.map_append, laid.upper_outline, List.map_cons, laid.line_outline,
    map_outline_ruled, Draft.lines, ruled_append_cons, Nat.zero_add, Nat.zero_add]
  rfl

/-- Relexing every line brings any table with the right spans up to date. -/
theorem Holds.relexAll (holds : editor.Holds draft)
    (outlines : editor.lines.lines.map Line.outline =
      ruled (slot editor.lines.layout) false 0 0 draft.lines) :
    ∃ last, editor.relexAll = .ok (editor.relexRange 0 last) ∧
      (editor.relexRange 0 last).Represents draft := by
  have count : editor.lines.lines.length = draft.lines.length := by
    have same := congrArg List.length outlines
    simpa using same
  have some := draft.row_lt_length_lines
  have lastIndex : editor.lines.lastIndex = .ok (editor.lines.lines.length - 1) :=
    Word.sub_of_le (by rw [LineTable.size]; omega)
  obtain ⟨word, ranges⟩ := editor.relexRange_eq 0 (editor.lines.lines.length - 1)
  refine ⟨editor.lines.lines.length - 1, ?_, ?_⟩
  · rw [Editor.relexAll, lastIndex]
    rfl
  · have rebuilds := mapIdx_rebuilt false editor.lines.lines.length draft.lines
      editor.lines.lines 0 [] [] outlines (by simp [holds.text, Draft.text]) (by simp [count])
    have stretch := mapIdx_stretch
      (fun index line => editor.rebuilt (decide (index + 1 < editor.lines.lines.length)) line)
      [] editor.lines.lines []
    have whole : editor.lines.lines.length = editor.lines.lines.length - 1 + 1 - 0 := by omega
    rw [List.nil_append, List.append_nil, List.nil_append, List.append_nil] at stretch
    rw [ranges, ← whole]
    refine { toHolds := holds.of_same rfl rfl rfl, table := ?_ }
    exact stretch.trans rebuilds

/-- Relexing changes nothing but lines and the lexer's scratch word. -/
@[simp]
theorem surroundings_relexRange (editor : Editor κ) (first last : Nat) :
    (editor.relexRange first last).surroundings = editor.surroundings := by
  obtain ⟨word, ranges⟩ := editor.relexRange_eq first last
  rw [ranges]
  rfl

/-! ## The end of an operation -/

/-- The editor at the end of an operation on a draft. -/
def finished (editor : Editor κ) (draft : Draft) : Editor κ :=
  { editor with
    cursor := { editor.cursor with
      indentLevel := indentUnits editor.options.tabSize (draft.current.takeWhile isBlank) }
    blink := Blink.fresh
    watch := editor.watch.observe draft.position }

theorem Represents.currentColumn_eq (represents : editor.Represents draft) :
    editor.currentColumn = .ok draft.column := by
  have column : Word.sub editor.cursor.caret draft.start = .ok draft.column := by
    rw [represents.caret, Draft.offset, Word.sub_of_le (Nat.le_add_right _ _),
      Nat.add_sub_cancel_left]
  rw [currentColumn, represents.currentLine_eq]
  exact column

theorem Represents.position_eq (represents : editor.Represents draft) :
    editor.position = .ok draft.position := by
  rw [Editor.position, represents.currentColumn_eq, represents.row]
  rfl

/-- The checks at the end of an operation pass on every editor that represents a
draft. -/
theorem Represents.finish_eq (represents : editor.Represents draft) :
    editor.finish = .ok (editor.finished draft) := by
  have line := represents.currentLine_eq
  have level : editor.indentLevel =
      .ok (indentUnits editor.options.tabSize (draft.current.takeWhile isBlank)) := by
    rw [indentLevel, line, ← take_leadingBlanks,
      ← represents.slice_prefix _ (leadingBlanks_le_length draft.current)]
    rfl
  have tiles : editor.lines.tiles editor.buffer.length = true := by
    have cover := tilesFrom_ruled editor.look 0 0
    rw [LineTable.tiles, represents.table, represents.length, Draft.text]
    cases shape : draft.lines with
    | nil => simp [Draft.lines] at shape
    | cons text later => simpa using cover text later
  have inside : (editor.look.rule draft.row draft.start draft.current
      (!draft.below.isEmpty)).contains editor.cursor.caret = true := by
    have reach := draft.length_current
    rw [represents.caret]
    simp [Line.contains, Look.rule, Draft.offset]
    omega
  unfold finish
  rw [level, represents.position_eq, tiles, line]
  simp only [bind, Except.bind, Bool.true_eq_false, if_false, inside]
  rfl

/-- What an operation leaves behind: the editor shows a draft, the caret is
visible, its position has been made known, and the remembered column is as
given. -/
structure Settled (editor next : Editor κ) (desired : Option Nat) (draft : Draft) : Prop
    extends Shows next draft where
  around : next.surroundings =
    { editor.surroundings with
      blink := Blink.fresh
      watch := editor.watch.observe draft.position
      desiredColumn := desired }

/-- An operation that has brought its lines up to date ends well. -/
theorem Represents.finish (editor : Editor κ) {next : Editor κ} {desired : Option Nat}
    (represents : next.Represents draft) (unbroken : draft.UnbrokenLines)
    (same : next.surroundings = { editor.surroundings with desiredColumn := desired }) :
    ∃ last, next.finish = .ok last ∧ Settled editor last desired draft := by
  refine ⟨next.finished draft, represents.finish_eq, ?_⟩
  have watch : next.watch = editor.watch := congrArg Surroundings.watch same
  exact {
    toHolds := represents.toHolds.of_same rfl rfl rfl
    table := represents.table
    unbroken
    indentLevel := rfl
    around := by
      change ({ next.surroundings with
        blink := Blink.fresh, watch := next.watch.observe draft.position } : Surroundings κ) = _
      rw [same, watch] }

/-- Settling finishes a change: the draft is shown and the caret is where it is. -/
theorem Represents.settle (editor : Editor κ) {next : Editor κ}
    (represents : next.Represents draft) (unbroken : draft.UnbrokenLines)
    (same : next.surroundings = editor.surroundings) :
    ∃ last, next.settle = .ok last ∧ Settled editor last none draft := by
  have cleared : { next with cursor := next.cursor.clearDesired }.Represents draft :=
    { toHolds := represents.toHolds.of_same rfl rfl rfl
      table := represents.table }
  exact cleared.finish editor unbroken (by rw [← same]; rfl)

/-- The end of an edit: it is enough to relex from the first line that the edit
has touched down to the caret's. -/
theorem Laid.settleRange {next : Editor κ} {kept stale : List (List Char)}
    {dirty : List (Line κ)} {line : Line κ} {first last : Nat}
    (laid : next.Laid (ruled editor.look.rule true 0 0 kept ++ dirty) line draft)
    (above : draft.above = kept ++ stale) (starts : first = kept.length) (ends : last = draft.row)
    (unbroken : draft.UnbrokenLines) (same : next.surroundings = editor.surroundings) :
    ∃ settled, (next.relexRange first last).settle = .ok settled ∧
      Settled editor settled none draft := by
  have look : next.look = editor.look := congrArg Surroundings.look same
  rw [← look] at laid
  subst starts ends
  exact (Laid.relexRange above laid).settle editor unbroken
    ((next.surroundings_relexRange _ _).trans same)

/-- The end of an edit that has touched one line only. -/
theorem Laid.settleLine (draft : Draft) {next : Editor κ} {line : Line κ} {row : Nat}
    (laid : next.Laid (ruled editor.look.rule true 0 0 draft.above) line draft)
    (here : row = draft.row) (unbroken : draft.UnbrokenLines)
    (same : next.surroundings = editor.surroundings) :
    ∃ settled, (next.relexLine row).settle = .ok settled ∧
      Settled editor settled none draft := by
  have above : draft.above = draft.above ++ [] := (List.append_nil draft.above).symm
  rw [relexLine_eq_relexRange]
  exact Laid.settleRange (by rwa [List.append_nil]) above here here unbroken same

end Editor

end EditorCore
