import EditorCore.Cursor
import EditorCore.Text.Blank
import EditorCore.Proofs.Flow

/-!
Contract: a plain document, cut in two at its caret.

Owns:
- `Draft`, the lines above and below the caret's line and the two parts of that
  line, so that there is always a line and the caret is always on it;
- its text as what leads up to the caret and what trails it;
- the elementary edits, which work on the end of the leading part, and placing
  the caret elsewhere on the same lines.

Does not own: capacities, refusals, or the spans that an editor keeps.
-/

namespace EditorCore

/-- A non-empty list of lines with a caret in one of them. -/
structure Draft where
  above : List (List Char)
  /-- The caret's line up to the caret. -/
  before : List Char
  /-- The caret's line from the caret on. -/
  after : List Char
  below : List (List Char)
deriving DecidableEq, Repr

namespace Draft

def blank : Draft := { above := [], before := [], after := [], below := [] }

def current (draft : Draft) : List Char := draft.before ++ draft.after

def lines (draft : Draft) : List (List Char) := draft.above ++ draft.current :: draft.below

def row (draft : Draft) : Nat := draft.above.length

/-- The number of characters between the start of the line and the caret. -/
def column (draft : Draft) : Nat := draft.before.length

def position (draft : Draft) : Position := { line := draft.row, column := draft.column }

/-- All characters, separators included. -/
def text (draft : Draft) : List Char := flow false draft.lines

/-- The characters before the caret. -/
def leading (draft : Draft) : List Char := flow true draft.above ++ draft.before

/-- The characters after the caret. -/
def trailing (draft : Draft) : List Char :=
  draft.after ++ (if draft.below.isEmpty then [] else separator) ++ flow false draft.below

/-- The offset at which the caret's line starts. -/
def start (draft : Draft) : Nat := (flow true draft.above).length

def stop (draft : Draft) : Nat := draft.start + draft.current.length

/-- The caret's offset. -/
def offset (draft : Draft) : Nat := draft.start + draft.column

/-- No line has a break inside it. -/
def UnbrokenLines (draft : Draft) : Prop := ∀ line ∈ draft.lines, Unbroken line

theorem text_eq (draft : Draft) : draft.text = draft.leading ++ draft.trailing := by
  unfold text lines leading trailing current
  rw [flow_append_cons]
  simp [flow]

@[simp]
theorem length_leading (draft : Draft) : draft.leading.length = draft.offset := by
  simp [leading, offset, start, column]

theorem length_text (draft : Draft) :
    draft.text.length = draft.offset + draft.trailing.length := by
  rw [text_eq, List.length_append, length_leading]

/-- The text up to the caret's line, the line, and what comes after it. -/
theorem text_eq_around (draft : Draft) :
    draft.text =
      flow true draft.above ++ draft.current ++
        ((if draft.below.isEmpty then [] else separator) ++ flow false draft.below) := by
  simp [text_eq, leading, trailing, current]

theorem length_current (draft : Draft) :
    draft.current.length = draft.column + draft.after.length := by
  simp [current, column]

theorem offset_le_stop (draft : Draft) : draft.offset ≤ draft.stop := by
  rw [offset, stop, length_current]
  omega

theorem stop_le_length_text (draft : Draft) : draft.stop ≤ draft.text.length := by
  rw [text_eq_around]
  simp only [List.length_append, stop, start]
  omega

/-- Where there are lines below, the text goes on with the separator and them. -/
theorem length_text_eq_below (draft : Draft) (more : draft.below ≠ []) :
    draft.text.length = draft.stop + separatorLength + (flow false draft.below).length := by
  have some : draft.below.isEmpty = false := List.isEmpty_eq_false_iff.mpr more
  rw [text_eq_around, some]
  simp only [stop, start, List.length_append, Bool.false_eq_true, if_false, length_separator]
  omega

theorem row_lt_length_lines (draft : Draft) : draft.row < draft.lines.length := by
  simp [row, lines]

theorem getElem?_lines_row (draft : Draft) : draft.lines[draft.row]? = some draft.current := by
  simp [row, lines]

theorem unbrokenLines_iff {draft : Draft} :
    draft.UnbrokenLines ↔
      (∀ line ∈ draft.above, Unbroken line) ∧ Unbroken draft.before ∧ Unbroken draft.after ∧
        ∀ line ∈ draft.below, Unbroken line := by
  rw [UnbrokenLines, lines, List.forall_mem_append, List.forall_mem_cons, current,
    unbroken_append, and_assoc]

/-! ## Elementary edits -/

/-- A run put before the caret. -/
def typed (draft : Draft) (run : List Char) : Draft :=
  { draft with before := draft.before ++ run }

/-- The caret's line split at the caret, which moves to the new line. -/
def opened (draft : Draft) : Draft :=
  { above := draft.above ++ [draft.before], before := [], after := draft.after,
    below := draft.below }

/-- So many characters of the caret's line removed before the caret. -/
def shortened (draft : Draft) (count : Nat) : Draft :=
  { draft with before := draft.before.take (draft.column - count) }

/-- The caret's line joined onto a line that has some others above it. -/
def foldedOnto (draft : Draft) (higher : List (List Char)) (last : List Char) : Draft :=
  { above := higher, before := last, after := draft.current, below := draft.below }

/-- The caret's line joined onto the one above it, if there is one. -/
def folded? (draft : Draft) : Option Draft :=
  draft.above.getLast?.map (draft.foldedOnto draft.above.dropLast)

/-- Each piece on a new line of its own. -/
def streamed (draft : Draft) : List (List Char) → Draft
  | [] => draft
  | piece :: later => (draft.opened.typed piece).streamed later

/-- Pieces put before the caret, the first on the caret's line and each further
one on a new line. -/
def pasted (draft : Draft) : List (List Char) → Draft
  | [] => draft
  | first :: later => (draft.typed first).streamed later

@[simp]
theorem typed_nil (draft : Draft) : draft.typed [] = draft := by
  simp [typed]

theorem typed_typed (draft : Draft) (first second : List Char) :
    (draft.typed first).typed second = draft.typed (first ++ second) := by
  simp [typed]

@[simp]
theorem leading_typed (draft : Draft) (run : List Char) :
    (draft.typed run).leading = draft.leading ++ run := by
  simp [leading, typed]

@[simp]
theorem trailing_typed (draft : Draft) (run : List Char) :
    (draft.typed run).trailing = draft.trailing := rfl

@[simp]
theorem leading_opened (draft : Draft) : draft.opened.leading = draft.leading ++ separator := by
  simp [leading, opened, flow]

@[simp]
theorem trailing_opened (draft : Draft) : draft.opened.trailing = draft.trailing := rfl

@[simp]
theorem trailing_shortened (draft : Draft) (count : Nat) :
    (draft.shortened count).trailing = draft.trailing := rfl

/-- Shortening takes characters from the end of the leading part. -/
theorem leading_shortened (draft : Draft) {count : Nat} (inside : count ≤ draft.column) :
    (draft.shortened count).leading = draft.leading.take (draft.offset - count) := by
  have reach : draft.offset - count = (flow true draft.above).length + (draft.column - count) := by
    unfold offset start
    omega
  rw [leading, leading, reach, List.take_length_add_append]
  rfl

@[simp]
theorem offset_typed (draft : Draft) (run : List Char) :
    (draft.typed run).offset = draft.offset + run.length := by
  rw [← length_leading, leading_typed, List.length_append, length_leading]

@[simp]
theorem stop_typed (draft : Draft) (run : List Char) :
    (draft.typed run).stop = draft.stop + run.length := by
  simp only [stop, start, current, typed, List.length_append]
  omega

@[simp]
theorem row_opened (draft : Draft) : draft.opened.row = draft.row + 1 := by
  simp [row, opened]

@[simp]
theorem start_opened (draft : Draft) : draft.opened.start = draft.offset + separatorLength := by
  simp [start, opened, offset, column, flow, Nat.add_assoc]

@[simp]
theorem offset_opened (draft : Draft) : draft.opened.offset = draft.offset + separatorLength := by
  rw [← length_leading, leading_opened, List.length_append, length_leading, length_separator]

@[simp]
theorem stop_opened (draft : Draft) : draft.opened.stop = draft.stop + separatorLength := by
  have rest : draft.opened.current.length = draft.after.length := rfl
  rw [stop, start_opened, rest, stop, offset, length_current]
  omega

theorem offset_shortened (draft : Draft) {count : Nat} (inside : count ≤ draft.column) :
    (draft.shortened count).offset = draft.offset - count := by
  have start : (draft.shortened count).start = draft.start := rfl
  have column : (draft.shortened count).column = draft.column - count := by
    simp [Draft.column, shortened]
  rw [offset, start, column, offset]
  omega

theorem stop_shortened (draft : Draft) {count : Nat} (inside : count ≤ draft.column) :
    (draft.shortened count).stop + count = draft.stop := by
  have start : (draft.shortened count).start = draft.start := rfl
  have column : (draft.shortened count).column = draft.column - count := by
    simp [Draft.column, shortened]
  have after : (draft.shortened count).after = draft.after := rfl
  rw [stop, start, length_current, column, after, stop, length_current]
  omega

section Folded

variable {draft : Draft} {higher : List (List Char)} {last : List Char}
  (split : draft.above = higher ++ [last]) (atStart : draft.before = [])

include split in
theorem stop_foldedOnto :
    (draft.foldedOnto higher last).stop + separatorLength = draft.stop := by
  simp [stop, start, foldedOnto, current, split, flow]
  omega

include split atStart in
theorem leading_foldedOnto :
    draft.leading = (draft.foldedOnto higher last).leading ++ separator := by
  simp [leading, foldedOnto, split, atStart, flow]

include atStart in
theorem trailing_foldedOnto : (draft.foldedOnto higher last).trailing = draft.trailing := by
  simp [trailing, foldedOnto, current, atStart]

include split atStart in
theorem length_text_foldedOnto :
    (draft.foldedOnto higher last).text.length + separatorLength = draft.text.length := by
  rw [text_eq, text_eq, leading_foldedOnto split atStart, trailing_foldedOnto atStart]
  simp only [List.length_append, length_separator]
  omega

end Folded

theorem length_text_typed (draft : Draft) (run : List Char) :
    (draft.typed run).text.length = draft.text.length + run.length := by
  simp only [text_eq, leading_typed, trailing_typed, List.length_append]
  omega

theorem length_text_opened (draft : Draft) :
    draft.opened.text.length = draft.text.length + separatorLength := by
  simp only [text_eq, leading_opened, trailing_opened, List.length_append, length_separator]
  omega

theorem length_text_shortened (draft : Draft) (count : Nat) :
    (draft.shortened count).text.length ≤ draft.text.length := by
  rw [length_text, length_text, trailing_shortened]
  simp only [offset, start, column, shortened, List.length_take]
  omega

/-- A pasted text grows the document by what the capacity check counts. -/
theorem length_text_streamed (draft : Draft) (pieces : List (List Char)) :
    (draft.streamed pieces).text.length =
      draft.text.length + pieces.flatten.length + pieces.length * separatorLength := by
  induction pieces generalizing draft with
  | nil => simp [streamed]
  | cons piece later inductionHypothesis =>
      rw [streamed, inductionHypothesis, length_text_typed, length_text_opened]
      simp only [List.flatten_cons, List.length_append, List.length_cons, separatorLength]
      omega

theorem length_text_pasted (draft : Draft) {pieces : List (List Char)} (some : pieces ≠ []) :
    (draft.pasted pieces).text.length = draft.text.length + joinedLength pieces := by
  cases pieces with
  | nil => exact absurd rfl some
  | cons first later =>
      rw [pasted, length_text_streamed, length_text_typed]
      simp only [joinedLength, List.flatten_cons, List.length_append, List.length_cons,
        Nat.add_sub_cancel]
      omega

theorem above_streamed (draft : Draft) (pieces : List (List Char)) :
    ∃ others, (draft.streamed pieces).above = draft.above ++ others := by
  induction pieces generalizing draft with
  | nil => exact ⟨[], (List.append_nil draft.above).symm⟩
  | cons piece later inductionHypothesis =>
      obtain ⟨others, above⟩ := inductionHypothesis (draft.opened.typed piece)
      refine ⟨draft.before :: others, ?_⟩
      rw [streamed, above]
      simp [opened, typed]

theorem above_pasted (draft : Draft) (pieces : List (List Char)) :
    ∃ others, (draft.pasted pieces).above = draft.above ++ others := by
  cases pieces with
  | nil => exact ⟨[], (List.append_nil draft.above).symm⟩
  | cons first later => exact (draft.typed first).above_streamed later

/-! ## Edits keep breaks out of lines -/

theorem unbrokenLines_blank : blank.UnbrokenLines := by
  simp [UnbrokenLines, blank, lines, current]

theorem UnbrokenLines.typed {draft : Draft} (unbroken : draft.UnbrokenLines) {run : List Char}
    (clean : Unbroken run) : (draft.typed run).UnbrokenLines := by
  rw [unbrokenLines_iff] at unbroken ⊢
  obtain ⟨above, before, after, below⟩ := unbroken
  exact ⟨above, unbroken_append.mpr ⟨before, clean⟩, after, below⟩

theorem UnbrokenLines.opened {draft : Draft} (unbroken : draft.UnbrokenLines) :
    draft.opened.UnbrokenLines := by
  rw [unbrokenLines_iff] at unbroken ⊢
  obtain ⟨above, before, after, below⟩ := unbroken
  have higher : ∀ line ∈ draft.above ++ [draft.before], Unbroken line :=
    List.forall_mem_append.mpr ⟨above, List.forall_mem_singleton.mpr before⟩
  exact ⟨higher, unbroken_nil, after, below⟩

theorem UnbrokenLines.shortened {draft : Draft} (unbroken : draft.UnbrokenLines) (count : Nat) :
    (draft.shortened count).UnbrokenLines := by
  rw [unbrokenLines_iff] at unbroken ⊢
  obtain ⟨above, before, after, below⟩ := unbroken
  exact ⟨above, fun char member => before char (List.mem_of_mem_take member), after, below⟩

theorem UnbrokenLines.streamed {draft : Draft} (unbroken : draft.UnbrokenLines)
    {pieces : List (List Char)} (clean : ∀ piece ∈ pieces, Unbroken piece) :
    (draft.streamed pieces).UnbrokenLines := by
  induction pieces generalizing draft with
  | nil => exact unbroken
  | cons piece later inductionHypothesis =>
      exact inductionHypothesis (unbroken.opened.typed (clean piece List.mem_cons_self))
        fun other member => clean other (List.mem_cons_of_mem _ member)

theorem UnbrokenLines.pasted {draft : Draft} (unbroken : draft.UnbrokenLines)
    {pieces : List (List Char)} (clean : ∀ piece ∈ pieces, Unbroken piece) :
    (draft.pasted pieces).UnbrokenLines := by
  cases pieces with
  | nil => exact unbroken
  | cons first later =>
      exact (unbroken.typed (clean first List.mem_cons_self)).streamed
        fun other member => clean other (List.mem_cons_of_mem _ member)

/-! ## Folding -/

theorem exists_above {draft : Draft} (below : 0 < draft.row) :
    ∃ higher last, draft.above = higher ++ [last] := by
  have nonempty : draft.above ≠ [] := List.length_pos_iff.mp below
  exact ⟨_, _, (List.dropLast_concat_getLast nonempty).symm⟩

theorem folded?_eq {draft : Draft} {higher : List (List Char)} {last : List Char}
    (split : draft.above = higher ++ [last]) :
    draft.folded? = some (draft.foldedOnto higher last) := by
  simp [folded?, split]

theorem UnbrokenLines.folded {draft next : Draft} (unbroken : draft.UnbrokenLines)
    (folds : draft.folded? = some next) : next.UnbrokenLines := by
  obtain ⟨last, found, -⟩ := Option.map_eq_some_iff.mp folds
  obtain ⟨higher, split⟩ := List.getLast?_eq_some_iff.mp found
  rw [folded?_eq split] at folds
  obtain rfl := Option.some.inj folds
  rw [unbrokenLines_iff] at unbroken ⊢
  obtain ⟨above, before, after, below⟩ := unbroken
  rw [split, List.forall_mem_append, List.forall_mem_singleton] at above
  exact ⟨above.1, above.2, unbroken_append.mpr ⟨before, after⟩, below⟩

/-! ## Placing the caret -/

/-- The caret in some line at a column, or at the line's end when the column is
past it. -/
def seek (draft : Draft) (row column : Nat) : Draft where
  above := draft.lines.take row
  before := (draft.lines.getD row []).take column
  after := (draft.lines.getD row []).drop column
  below := draft.lines.drop (row + 1)

/-- The offset at which some line starts. -/
def startOf (draft : Draft) (row : Nat) : Nat := (flow true (draft.lines.take row)).length

@[simp]
theorem startOf_row (draft : Draft) : draft.startOf draft.row = draft.start := by
  simp [startOf, lines, row, start]

theorem seek_self (draft : Draft) : draft.seek draft.row draft.column = draft := by
  simp [seek, lines, row, column, current]

section Seek

variable {draft : Draft} {row column : Nat} {line : List Char}
  (found : draft.lines[row]? = some line)

include found

theorem current_seek : (draft.seek row column).current = line := by
  simp [seek, current, found]

theorem lines_seek : (draft.seek row column).lines = draft.lines := by
  obtain ⟨inside, here⟩ := List.getElem?_eq_some_iff.mp found
  rw [lines, current_seek found]
  simp only [seek]
  rw [← here, ← List.drop_eq_getElem_cons inside, List.take_append_drop]

theorem row_seek : (draft.seek row column).row = row := by
  obtain ⟨inside, -⟩ := List.getElem?_eq_some_iff.mp found
  simp only [Draft.row, seek, List.length_take]
  omega

theorem column_seek : (draft.seek row column).column = min column line.length := by
  simp [Draft.column, seek, found]

theorem offset_seek (inside : column ≤ line.length) :
    (draft.seek row column).offset = draft.startOf row + column := by
  rw [offset, column_seek found, Nat.min_eq_left inside]
  rfl

theorem text_seek : (draft.seek row column).text = draft.text := by
  rw [text, lines_seek found, text]

theorem UnbrokenLines.seek (unbroken : draft.UnbrokenLines) :
    (draft.seek row column).UnbrokenLines := by
  unfold UnbrokenLines
  rw [lines_seek found]
  exact unbroken

end Seek

/-! ## Where lines stand in the text -/

section Lines

variable {draft : Draft} {row : Nat} {chars : List Char}
  (found : draft.lines[row]? = some chars)

include found

/-- The next line starts after the separator. -/
theorem startOf_succ :
    draft.startOf (row + 1) = draft.startOf row + chars.length + separatorLength := by
  obtain ⟨inside, here⟩ := List.getElem?_eq_some_iff.mp found
  rw [startOf, startOf, List.take_succ_eq_append_getElem inside, here, flow_true_append]
  simp [flow, Nat.add_assoc]

theorem text_eq_line :
    draft.text = flow true (draft.lines.take row) ++ chars ++
      ((if (draft.lines.drop (row + 1)).isEmpty then [] else separator) ++
        flow false (draft.lines.drop (row + 1))) := by
  have around := (draft.seek row 0).text_eq_around
  rwa [text_seek found, current_seek found] at around

theorem startOf_last (last : row + 1 = draft.lines.length) :
    draft.startOf row + chars.length = draft.text.length := by
  have nothing : draft.lines.drop (row + 1) = [] := List.drop_of_length_le (Nat.le_of_eq last.symm)
  rw [text_eq_line found, nothing, startOf]
  simp

theorem getElem?_text_line {place : Nat} (inside : place < chars.length) :
    draft.text[draft.startOf row + place]? = chars[place]? := by
  rw [text_eq_line found, startOf, List.append_assoc, List.getElem?_append_right (by omega),
    Nat.add_sub_cancel_left, List.getElem?_append_left inside]

/-- Every line but the last is followed by the separator. -/
theorem getElem?_text_separator (more : row + 1 < draft.lines.length) (place : Nat)
    (inside : place < separatorLength) :
    draft.text[draft.startOf row + chars.length + place]? = separator[place]? := by
  have later : draft.lines.drop (row + 1) ≠ [] := by
    rw [ne_eq, List.drop_eq_nil_iff]
    omega
  have some : (draft.lines.drop (row + 1)).isEmpty = false := List.isEmpty_eq_false_iff.mpr later
  rw [text_eq_line found, startOf, ← List.length_append,
    List.getElem?_append_right (Nat.le_add_right _ _), Nat.add_sub_cancel_left, some]
  exact List.getElem?_append_left inside

end Lines

end Draft

end EditorCore
