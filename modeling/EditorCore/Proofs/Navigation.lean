import EditorCore.Editor.Navigation
import EditorCore.Proofs.Upkeep

/-!
Contract: every motion of the caret ends at a position of the same document.

Owns:
- the position that each motion aims at, as a function of the draft;
- for each motion, that it goes through and where the caret is afterwards.

Does not own: how positions follow one another in the document.
-/

namespace EditorCore

/-! ## Where motions lead -/

/-- The column that a line remembers between vertical motions. -/
def Motion.remembers (column : Nat) (desired : Option Nat) : Motion → Option Nat
  | .up | .down => some (desired.getD column)
  | _ => none

namespace Draft

variable (draft : Draft)

def goTo (position : Position) : Draft := draft.seek position.line position.column

def lengthOf (row : Nat) : Nat := (draft.lines.getD row []).length

def endOf (row : Nat) : Position := { line := row, column := draft.lengthOf row }

/-- From the end of a line, the start of the next. -/
def onward : Position :=
  if draft.row + 1 < draft.lines.length then { line := draft.row + 1, column := 0 }
  else draft.position

/-- From the start of a line, the end of the one above. -/
def backward : Position :=
  if 0 < draft.row then draft.endOf (draft.row - 1) else draft.position

/-- The remembered column on another line, or the end of that line. -/
def vertical (desired : Option Nat) (row : Nat) : Position where
  line := row
  column := min (desired.getD draft.column) (draft.lengthOf row)

/-- The position that a motion aims at.  Past the first and the last line there
is none to aim at.  Word motion is told how far a step reaches. -/
def target (step : List Char → Nat) (desired : Option Nat) : Motion → Option Position
  | .left =>
      some (if 0 < draft.column then { line := draft.row, column := draft.column - 1 }
        else draft.backward)
  | .right =>
      some (if draft.column < draft.current.length then
          { line := draft.row, column := draft.column + 1 }
        else draft.onward)
  | .up => if 0 < draft.row then some (draft.vertical desired (draft.row - 1)) else none
  | .down =>
      if draft.row + 1 < draft.lines.length then some (draft.vertical desired (draft.row + 1))
      else none
  | .lineStart => some { line := draft.row, column := 0 }
  | .lineEnd => some (draft.endOf draft.row)
  | .wordLeft =>
      some (if 0 < draft.column then
          { line := draft.row, column := draft.column - step draft.before.reverse }
        else draft.backward)
  | .wordRight =>
      some (if draft.column < draft.current.length then
          { line := draft.row, column := draft.column + step draft.after }
        else draft.onward)
  | .documentStart => some Position.zero
  | .documentEnd => some (draft.endOf (draft.lines.length - 1))

/-- A position as near to the given one as the document has it. -/
def nearest (position : Position) : Position :=
  let row := min position.line (draft.lines.length - 1)
  { line := row, column := min position.column (draft.lengthOf row) }

variable {draft : Draft} {row : Nat} {line : List Char}

theorem lengthOf_eq (found : draft.lines[row]? = some line) :
    draft.lengthOf row = line.length := by
  rw [lengthOf, List.getD_eq_getElem?_getD, found]
  rfl

theorem exists_line (draft : Draft) (row : Nat) (inside : row < draft.lines.length) :
    ∃ line, draft.lines[row]? = some line :=
  ⟨_, List.getElem?_eq_getElem inside⟩

@[simp]
theorem goTo_position : draft.goTo draft.position = draft := draft.seek_self

end Draft

namespace Editor

variable {κ : Type} {editor : Editor κ} {draft : Draft} {row column : Nat} {line : List Char}

def placed (editor : Editor κ) (row caret : Nat) (x : κ) : Editor κ :=
  { editor with cursor := { editor.cursor with caret, line := row, x } }

variable [Coordinate κ]

/-! ## Placing the caret -/

/-- An editor whose caret has been put on some line still represents the
document. -/
theorem Represents.placed (represents : editor.Represents draft)
    (found : draft.lines[row]? = some line) (inside : column ≤ line.length) (x : κ) :
    (editor.placed row (draft.startOf row + column) x).Represents (draft.seek row column) where
  text := by
    rw [Draft.text_seek found]
    exact represents.text
  row := (Draft.row_seek found).symm
  caret := (Draft.offset_seek found inside).symm
  bounded := by
    rw [Draft.text_seek found]
    exact represents.bounded
  words := represents.words
  table := by
    rw [Draft.lines_seek found]
    exact represents.table

/-- A caret that is put inside a line settles there. -/
theorem Shows.settle_placed (shows : editor.Shows draft) (found : draft.lines[row]? = some line)
    (inside : column ≤ line.length) (x : κ) :
    ∃ last, (editor.placed row (draft.startOf row + column) x).settle = .ok last ∧
      Settled editor last none (draft.seek row column) :=
  (shows.toRepresents.placed found inside x).settle editor (shows.unbroken.seek found) rfl

theorem Shows.settle_still (shows : editor.Shows draft) :
    ∃ last, editor.settle = .ok last ∧ Settled editor last none draft :=
  shows.toRepresents.settle editor shows.unbroken rfl

theorem Represents.refreshX (represents : editor.Represents draft) :
    ∃ x, editor.refreshX = .ok (editor.placed editor.cursor.line editor.cursor.caret x) := by
  refine ⟨editor.widthOf draft.start editor.cursor.caret, ?_⟩
  rw [Editor.refreshX, represents.currentLine_eq]
  rfl

/-- The start of a line is where its span starts, at zero. -/
theorem Represents.toLineStart (represents : editor.Represents draft)
    (found : draft.lines[row]? = some line) :
    editor.toLineStart row = .ok (editor.placed row (draft.startOf row + 0) 0) := by
  rw [Editor.toLineStart, represents.get_eq found]
  rfl

/-- The end of a line is where its text ends. -/
theorem Represents.toLineEnd (represents : editor.Represents draft)
    (found : draft.lines[row]? = some line) :
    ∃ x, editor.toLineEnd row =
      .ok (editor.placed row (draft.startOf row + line.length) x) := by
  obtain ⟨x, refreshes⟩ :=
    (represents.placed found (Nat.le_refl line.length) editor.cursor.x).refreshX
  refine ⟨x, ?_⟩
  rw [Editor.toLineEnd, represents.get_eq found]
  exact refreshes

/-- A motion goes through and ends at a position. -/
def Arrives (editor : Editor κ) (draft : Draft) (desired : Option Nat) (position : Position)
    (outcome : Checked (Editor κ)) : Prop :=
  ∃ last, outcome = .ok last ∧ Settled editor last desired (draft.goTo position)

/-- Putting the caret inside a line and settling arrives there. -/
theorem Shows.arrives (shows : editor.Shows draft) (found : draft.lines[row]? = some line)
    (inside : column ≤ line.length) {index caret : Nat} (place : index = row)
    (offset : caret = draft.startOf row + column) (x : κ) :
    editor.Arrives draft none { line := row, column } (editor.placed index caret x).settle := by
  subst place offset
  exact shows.settle_placed found inside x

/-- Motions inside the line of the caret arrive by offsets. -/
theorem Shows.arrives_inLine (shows : editor.Shows draft) (inside : column ≤ draft.current.length)
    {caret : Nat} (offset : caret = draft.start + column) (x : κ) :
    editor.Arrives draft none { line := draft.row, column }
      (editor.placed editor.cursor.line caret x).settle := by
  rw [← draft.startOf_row] at offset
  exact shows.arrives draft.getElem?_lines_row inside shows.row offset x

theorem Shows.arrives_lineStart (shows : editor.Shows draft)
    (found : draft.lines[row]? = some line) :
    editor.Arrives draft none { line := row, column := 0 }
      (editor.toLineStart row >>= Editor.settle) := by
  rw [shows.toLineStart found]
  exact shows.arrives found (Nat.zero_le _) rfl rfl 0

theorem Shows.arrives_lineEnd (shows : editor.Shows draft)
    (found : draft.lines[row]? = some line) :
    editor.Arrives draft none (draft.endOf row) (editor.toLineEnd row >>= Editor.settle) := by
  obtain ⟨x, ends⟩ := shows.toLineEnd found
  rw [ends, Draft.endOf, Draft.lengthOf_eq found]
  exact shows.arrives found (Nat.le_refl _) rfl rfl x

/-- A motion that has nowhere to go arrives where it is. -/
theorem Shows.arrives_still (shows : editor.Shows draft) :
    editor.Arrives draft none draft.position editor.settle := by
  unfold Arrives
  rw [Draft.goTo_position]
  exact shows.settle_still

/-! ## Between lines -/

/-- Past the end of a line comes the start of the next, if there is one. -/
theorem Shows.onward (shows : editor.Shows draft) :
    editor.Arrives draft none draft.onward
      (if editor.cursor.line + 1 < editor.lines.size then
        editor.toLineStart (editor.cursor.line + 1) >>= Editor.settle
      else editor.settle) := by
  unfold Draft.onward
  rw [shows.row, shows.size]
  by_cases more : draft.row + 1 < draft.lines.length
  · obtain ⟨line, found⟩ := draft.exists_line (draft.row + 1) more
    rw [if_pos more, if_pos more]
    exact shows.arrives_lineStart found
  · rw [if_neg more, if_neg more]
    exact shows.arrives_still

/-- Before the start of a line comes the end of the one above, if there is one. -/
theorem Shows.backward (shows : editor.Shows draft) :
    editor.Arrives draft none draft.backward
      (if 0 < editor.cursor.line then
        editor.toLineEnd (editor.cursor.line - 1) >>= Editor.settle
      else editor.settle) := by
  unfold Draft.backward
  rw [shows.row]
  by_cases more : 0 < draft.row
  · have inside := draft.row_lt_length_lines
    obtain ⟨line, found⟩ := draft.exists_line (draft.row - 1) (by omega)
    rw [if_pos more, if_pos more]
    exact shows.arrives_lineEnd found
  · rw [if_neg more, if_neg more]
    exact shows.arrives_still

/-! ## By character -/

theorem Shows.moveLeft (shows : editor.Shows draft) :
    editor.Arrives draft none
      (if 0 < draft.column then { line := draft.row, column := draft.column - 1 }
        else draft.backward) editor.moveLeft := by
  have caret : editor.cursor.caret = draft.start + draft.column := shows.caret
  have width := draft.length_current
  unfold Editor.moveLeft
  rw [shows.currentLine_eq]
  change Arrives _ _ _ _ (if draft.start < editor.cursor.caret then _ else _)
  by_cases inLine : 0 < draft.column
  · rw [if_pos inLine, if_pos (by omega)]
    exact shows.arrives_inLine (by omega) (by omega) _
  · rw [if_neg inLine, if_neg (by omega)]
    exact shows.backward

theorem Shows.moveRight (shows : editor.Shows draft) :
    editor.Arrives draft none
      (if draft.column < draft.current.length then
        { line := draft.row, column := draft.column + 1 }
      else draft.onward) editor.moveRight := by
  have caret : editor.cursor.caret = draft.start + draft.column := shows.caret
  unfold Editor.moveRight
  rw [shows.currentLine_eq]
  change Arrives _ _ _ _ (if editor.cursor.caret < draft.start + draft.current.length then _ else _)
  by_cases inLine : draft.column < draft.current.length
  · rw [if_pos inLine, if_pos (by omega)]
    exact shows.arrives_inLine inLine (by omega) _
  · rw [if_neg inLine, if_neg (by omega)]
    exact shows.onward

/-! ## By line -/

/-- A vertical motion keeps to the wanted column, as far as the line goes. -/
theorem Shows.moveVertical (shows : editor.Shows draft)
    (found : draft.lines[row]? = some line) :
    editor.Arrives draft (some (editor.cursor.desiredColumn.getD draft.column))
      (draft.vertical editor.cursor.desiredColumn row) (editor.moveVertical row) := by
  let remembering := { editor with cursor := editor.cursor.setDesired draft.column }
  have represents : remembering.Represents draft :=
    { toHolds := shows.toHolds.of_same rfl rfl rfl
      table := shows.table }
  have inside : min (editor.cursor.desiredColumn.getD draft.column) line.length ≤ line.length :=
    Nat.min_le_right _ _
  have placed := represents.placed found inside editor.cursor.x
  obtain ⟨x, refreshes⟩ := placed.refreshX
  obtain ⟨last, finishes, settled⟩ :=
    (represents.placed found inside x).finish editor (shows.unbroken.seek found) rfl
  refine ⟨last, ?_, ?_⟩
  · rw [Editor.moveVertical, shows.currentColumn_eq]
    change (editor.lines.get row >>= _) = _
    rw [shows.get_eq found]
    change (Line.length _ >>= _) = _
    rw [Look.length_rule]
    change ((remembering.placed row (draft.startOf row +
      min (editor.cursor.desiredColumn.getD draft.column) line.length)
      editor.cursor.x).refreshX >>= _) = _
    rw [refreshes]
    exact finishes
  · rw [Draft.vertical, Draft.lengthOf_eq found]
    exact settled

/-- On the first line there is no way up, and nothing is settled. -/
theorem Shows.moveUp (shows : editor.Shows draft) :
    match draft.target editor.wordStep editor.cursor.desiredColumn .up with
    | some position =>
        editor.Arrives draft (some (editor.cursor.desiredColumn.getD draft.column)) position
          editor.moveUp
    | none => editor.moveUp = .ok editor := by
  unfold Editor.moveUp Draft.target
  rw [shows.row]
  by_cases more : 0 < draft.row
  · have inside := draft.row_lt_length_lines
    obtain ⟨line, found⟩ := draft.exists_line (draft.row - 1) (by omega)
    rw [if_pos more, if_pos more]
    exact shows.moveVertical found
  · rw [if_neg more, if_neg more]

/-- On the last line there is no way down, and nothing is settled. -/
theorem Shows.moveDown (shows : editor.Shows draft) :
    match draft.target editor.wordStep editor.cursor.desiredColumn .down with
    | some position =>
        editor.Arrives draft (some (editor.cursor.desiredColumn.getD draft.column)) position
          editor.moveDown
    | none => editor.moveDown = .ok editor := by
  unfold Editor.moveDown Draft.target
  rw [shows.row, shows.size]
  by_cases more : draft.row + 1 < draft.lines.length
  · obtain ⟨line, found⟩ := draft.exists_line (draft.row + 1) more
    rw [if_pos more, if_pos more]
    exact shows.moveVertical found
  · rw [if_neg more, if_neg more]

theorem Shows.moveLineStart (shows : editor.Shows draft) :
    editor.Arrives draft none { line := draft.row, column := 0 } editor.moveLineStart := by
  rw [Editor.moveLineStart, shows.row]
  exact shows.arrives_lineStart draft.getElem?_lines_row

theorem Shows.moveLineEnd (shows : editor.Shows draft) :
    editor.Arrives draft none (draft.endOf draft.row) editor.moveLineEnd := by
  rw [Editor.moveLineEnd, shows.row]
  exact shows.arrives_lineEnd draft.getElem?_lines_row

theorem Shows.moveDocumentStart (shows : editor.Shows draft) :
    editor.Arrives draft none Position.zero editor.moveDocumentStart := by
  obtain ⟨line, found⟩ := draft.exists_line 0
    (Nat.zero_lt_of_lt draft.row_lt_length_lines)
  exact shows.arrives found (Nat.zero_le _) rfl rfl 0

theorem Represents.lastIndex_eq (represents : editor.Represents draft) :
    editor.lines.lastIndex = .ok (draft.lines.length - 1) := by
  have some := draft.row_lt_length_lines
  rw [LineTable.lastIndex, represents.size]
  exact Word.sub_of_le (by omega)

theorem Shows.moveDocumentEnd (shows : editor.Shows draft) :
    editor.Arrives draft none (draft.endOf (draft.lines.length - 1)) editor.moveDocumentEnd := by
  have some := draft.row_lt_length_lines
  obtain ⟨line, found⟩ := draft.exists_line (draft.lines.length - 1)
    (by omega)
  rw [Editor.moveDocumentEnd, shows.lastIndex_eq]
  exact shows.arrives_lineEnd found

/-! ## By word -/

omit [Coordinate κ] in
theorem wordStep_le_length (editor : Editor κ) (chars : List Char) :
    editor.wordStep chars ≤ chars.length := by
  cases chars with
  | nil => exact Nat.le_refl _
  | cons char rest =>
      rw [wordStep]
      split
      · exact Nat.succ_le_succ (Nat.zero_le _)
      · exact (List.takeWhile_prefix _).length_le

/-- A step by word goes over what the rest of the line starts with. -/
theorem Shows.moveWordRight (shows : editor.Shows draft) :
    editor.Arrives draft none
      (if draft.column < draft.current.length then
        { line := draft.row, column := draft.column + editor.wordStep draft.after }
      else draft.onward) editor.moveWordRight := by
  have caret : editor.cursor.caret = draft.start + draft.column := shows.caret
  have width := draft.length_current
  have step := editor.wordStep_le_length draft.after
  have rest : editor.buffer.slice editor.cursor.caret draft.stop = draft.after := by
    rw [shows.caret, shows.slice_after]
  unfold Editor.moveWordRight
  rw [shows.currentLine_eq]
  change Arrives _ _ _ _ (if draft.stop ≤ editor.cursor.caret then _ else settle
    (editor.placed editor.cursor.line (editor.cursor.caret +
      editor.wordStep (editor.buffer.slice editor.cursor.caret draft.stop)) _))
  have reach : draft.stop = draft.start + draft.current.length := rfl
  rw [rest]
  by_cases inLine : draft.column < draft.current.length
  · rw [if_pos inLine, if_neg (by omega)]
    exact shows.arrives_inLine (by omega) (by omega) _
  · rw [if_neg inLine, if_pos (by omega)]
    exact shows.onward

/-- A step by word goes over what the line up to the caret ends with. -/
theorem Shows.moveWordLeft (shows : editor.Shows draft) :
    editor.Arrives draft none
      (if 0 < draft.column then
        { line := draft.row, column := draft.column - editor.wordStep draft.before.reverse }
      else draft.backward) editor.moveWordLeft := by
  have caret : editor.cursor.caret = draft.start + draft.column := shows.caret
  have width := draft.length_current
  have step := editor.wordStep_le_length draft.before.reverse
  have columns : draft.before.reverse.length = draft.column := List.length_reverse
  have left : editor.buffer.slice draft.start editor.cursor.caret = draft.before := by
    rw [shows.caret, shows.slice_before]
  unfold Editor.moveWordLeft
  rw [shows.currentLine_eq]
  change Arrives _ _ _ _ (if editor.cursor.caret ≤ draft.start then _ else
    Word.sub editor.cursor.caret
      (editor.wordStep (editor.buffer.slice draft.start editor.cursor.caret).reverse) >>= _)
  rw [left]
  by_cases inLine : 0 < draft.column
  · have inside : draft.column - editor.wordStep draft.before.reverse ≤ draft.current.length := by
      omega
    have offset : editor.cursor.caret - editor.wordStep draft.before.reverse =
        draft.start + (draft.column - editor.wordStep draft.before.reverse) := by omega
    have placed := shows.toRepresents.placed draft.getElem?_lines_row inside editor.cursor.x
    rw [draft.startOf_row, ← offset, ← shows.row] at placed
    obtain ⟨x, refreshes⟩ := placed.refreshX
    rw [if_pos inLine, if_neg (by omega), Word.sub_of_le (by omega)]
    change Arrives _ _ _ _ ((editor.placed editor.cursor.line _ editor.cursor.x).refreshX >>= _)
    rw [refreshes]
    exact shows.arrives_inLine inside offset x
  · rw [if_neg inLine, if_pos (by omega)]
    exact shows.backward

/-- A movement request ends where the motion aims, and one that aims nowhere
changes nothing. -/
theorem Shows.move (shows : editor.Shows draft) (motion : Motion) :
    match draft.target editor.wordStep editor.cursor.desiredColumn motion with
    | some position =>
        editor.Arrives draft (motion.remembers draft.column editor.cursor.desiredColumn) position
          (editor.move motion)
    | none => editor.move motion = .ok editor := by
  cases motion with
  | left => exact shows.moveLeft
  | right => exact shows.moveRight
  | up => exact shows.moveUp
  | down => exact shows.moveDown
  | lineStart => exact shows.moveLineStart
  | lineEnd => exact shows.moveLineEnd
  | wordLeft => exact shows.moveWordLeft
  | wordRight => exact shows.moveWordRight
  | documentStart => exact shows.moveDocumentStart
  | documentEnd => exact shows.moveDocumentEnd

/-! ## To a place -/

/-- A place that does not exist is taken for the nearest one. -/
theorem Shows.moveToPosition (shows : editor.Shows draft) (position : Position) :
    editor.Arrives draft none (draft.nearest position) (editor.moveToPosition position) := by
  have some := draft.row_lt_length_lines
  let row := min position.line (draft.lines.length - 1)
  obtain ⟨line, found⟩ := draft.exists_line row (by omega)
  have inside : min position.column line.length ≤ line.length := Nat.min_le_right _ _
  obtain ⟨x, refreshes⟩ :=
    (shows.toRepresents.placed found inside editor.cursor.x).refreshX
  have arrives := shows.arrives found inside rfl rfl x
  rw [Draft.nearest, Draft.lengthOf_eq found, Editor.moveToPosition, shows.lastIndex_eq]
  change Arrives _ _ _ _ (editor.lines.get row >>= _)
  rw [shows.get_eq found]
  change Arrives _ _ _ _ (Line.length _ >>= _)
  rw [Look.length_rule]
  change Arrives _ _ _ _ ((editor.placed row (draft.startOf row +
    min position.column line.length) editor.cursor.x).refreshX >>= _)
  rw [refreshes]
  exact arrives

/-- The position under a pointer: the line whose slot is at the height, and on it
the first column that reaches the pointer. -/
def pointed (editor : Editor κ) (draft : Draft) (x y : κ) : Position :=
  let row := editor.lines.layout.lineAtY draft.lines.length y
  { line := row
    column := (columnAt editor.advance (x - editor.lines.layout.originX) 0
      (draft.lines.getD row [])).1 }

/-- The column below a pointer lies in the line. -/
theorem columnAt_le_length (advance : Char → κ) (goal width : κ) (chars : List Char) :
    (columnAt advance goal width chars).1 ≤ chars.length := by
  induction chars generalizing width with
  | nil => exact Nat.le_refl _
  | cons char rest inductionHypothesis =>
      rw [columnAt]
      split
      · exact Nat.zero_le _
      · exact Nat.succ_le_succ (inductionHypothesis _)

/-- The pointed line exists whatever the height and the layout. -/
theorem lineAtY_lt {count : Nat} (some : 0 < count) (layout : Layout κ) (y : κ) :
    layout.lineAtY count y < count := by
  unfold Layout.lineAtY
  split
  · exact some
  · omega

/-- A pointer, wherever it is, leads to a place. -/
theorem Shows.moveToPoint (shows : editor.Shows draft) (x y : κ) :
    editor.Arrives draft none (editor.pointed draft x y) (editor.moveToPoint x y) := by
  have some := draft.row_lt_length_lines
  let row := editor.lines.layout.lineAtY draft.lines.length y
  obtain ⟨line, found⟩ := draft.exists_line row
    (lineAtY_lt (by omega) editor.lines.layout y)
  have chars : editor.charsOf (editor.look.rule row (draft.startOf row) line
      (decide (row + 1 < draft.lines.length))) = line := shows.slice_line found
  have inside := columnAt_le_length editor.advance (x - editor.lines.layout.originX) 0 line
  have texts : draft.lines.getD row [] = line := by
    rw [List.getD_eq_getElem?_getD, found]
    rfl
  have slot : editor.lines.lineAtY y = row := by
    rw [LineTable.lineAtY, shows.size]
  rw [Editor.moveToPoint, slot, shows.get_eq found]
  change Arrives _ _ _ _ (settle (editor.placed row (draft.startOf row +
    (columnAt editor.advance (x - editor.lines.layout.originX) 0 (editor.charsOf _)).1) _))
  rw [chars, pointed, texts]
  exact shows.arrives found inside rfl rfl _

end Editor

end EditorCore
