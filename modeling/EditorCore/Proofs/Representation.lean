import EditorCore.Editor.Upkeep
import EditorCore.Proofs.Draft
import EditorCore.Proofs.Ruling

/-!
Contract: when an editor represents a plain document.

Owns:
- `Editor.Holds`, agreement of the text and the caret with a draft;
- `Editor.Laid`, agreement of the spans as well, while indentation and tokens of
  some lines may be out of date;
- `Editor.Represents`, all lines as if made from scratch, and `Editor.Shows`,
  which adds what holds between two calls;
- `Surroundings`, what edits of text and lines leave alone;
- rebuilding as the way from spans to lines.

Does not own: the edits themselves.
-/

namespace EditorCore

/-! ## Lists with a marked stretch -/

/-- Changing the elements of a stretch leaves what stands around it. -/
theorem mapIdx_stretch {α : Type} (change : Nat → α → α) (front middle back : List α) :
    (front ++ middle ++ back).mapIdx
        (fun index item =>
          if front.length ≤ index ∧ index < front.length + middle.length then change index item
          else item) =
      front ++ middle.mapIdx (fun place item => change (front.length + place) item) ++ back := by
  apply List.ext_getElem?
  intro index
  simp only [List.getElem?_mapIdx, List.getElem?_append, List.length_append, List.length_mapIdx]
  by_cases inFront : index < front.length
  · rw [if_pos (by omega), if_pos inFront, if_pos (by omega), if_pos inFront]
    have outside : ¬ (front.length ≤ index ∧ index < front.length + middle.length) := by omega
    simp [outside]
  · by_cases inMiddle : index < front.length + middle.length
    · rw [if_pos inMiddle, if_neg inFront, if_pos inMiddle, if_neg inFront]
      have inside : front.length ≤ index ∧ index < front.length + middle.length := by omega
      have place : front.length + (index - front.length) = index := by omega
      simp [inside, place]
    · rw [if_neg inMiddle, if_neg inMiddle]
      have outside : ¬ (front.length ≤ index ∧ index < front.length + middle.length) := by omega
      simp [outside]

/-- What stands between two parts of a text is its slice. -/
theorem Buffer.slice_between {buffer : Buffer} {prior text following : List Char}
    (whole : buffer.toList = prior ++ text ++ following) :
    buffer.slice prior.length (prior.length + text.length) = text := by
  rw [slice_eq, whole, List.append_assoc, List.take_length_add_append, List.drop_left,
    List.take_left]

namespace Editor

variable {κ : Type}

/-! ## Agreement with a draft -/

/-- What an editor makes its lines by. -/
def look (editor : Editor κ) : Look κ where
  layout := editor.lines.layout
  keywords := editor.lexer.keywords
  metrics := editor.metrics
  options := editor.options

/-- Everything that edits of text and lines leave alone. -/
structure Surroundings (κ : Type) where
  look : Look κ
  capacity : Nat
  ending : LineEnding
  blink : Blink
  watch : CursorWatch
  afterTypedCr : Bool
  desiredColumn : Option Nat

def surroundings (editor : Editor κ) : Surroundings κ where
  look := editor.look
  capacity := editor.buffer.capacity
  ending := editor.ending
  blink := editor.blink
  watch := editor.watch
  afterTypedCr := editor.afterTypedCr
  desiredColumn := editor.cursor.desiredColumn

/-- The text and the caret are those of a draft, and both fit. -/
structure Holds (editor : Editor κ) (draft : Draft) : Prop where
  text : editor.buffer.toList = draft.text
  row : editor.cursor.line = draft.row
  caret : editor.cursor.caret = draft.offset
  bounded : draft.text.length ≤ editor.buffer.capacity
  words : editor.buffer.capacity ≤ Word.largest

section Holds

variable {editor : Editor κ} {draft : Draft}

/-- The buffer is as long as the draft's text. -/
theorem Holds.length (holds : editor.Holds draft) :
    editor.buffer.length = draft.text.length := by
  rw [← Buffer.length_toList, holds.text]

/-- Nothing besides the buffer and the caret matters to the text. -/
theorem Holds.of_same {next : Editor κ} (holds : editor.Holds draft)
    (buffer : next.buffer = editor.buffer) (row : next.cursor.line = editor.cursor.line)
    (caret : next.cursor.caret = editor.cursor.caret) : next.Holds draft where
  text := by rw [buffer, holds.text]
  row := row.trans holds.row
  caret := caret.trans holds.caret
  bounded := by rw [buffer]; exact holds.bounded
  words := by rw [buffer]; exact holds.words

theorem Holds.slice_current (holds : editor.Holds draft) :
    editor.buffer.slice draft.start draft.stop = draft.current :=
  Buffer.slice_between (holds.text.trans draft.text_eq_around)

/-- The characters of any line lie in the buffer at its span. -/
theorem Holds.slice_line (holds : editor.Holds draft) {index : Nat} {text : List Char}
    (found : draft.lines[index]? = some text) :
    editor.buffer.slice (draft.startOf index) (draft.startOf index + text.length) = text := by
  have whole : editor.buffer.toList = (draft.seek index 0).text := by
    rw [holds.text, Draft.text_seek found]
  have slice := Buffer.slice_between (whole.trans (draft.seek index 0).text_eq_around)
  rwa [Draft.current_seek found] at slice

/-- The characters of the caret's line from its start to some column. -/
theorem Holds.slice_prefix (holds : editor.Holds draft) (count : Nat)
    (inside : count ≤ draft.current.length) :
    editor.buffer.slice draft.start (draft.start + count) = draft.current.take count := by
  have split : editor.buffer.toList =
      flow true draft.above ++ draft.current.take count ++
        (draft.current.drop count ++
          ((if draft.below.isEmpty then [] else separator) ++ flow false draft.below)) := by
    rw [holds.text, draft.text_eq_around]
    simp only [List.append_assoc]
    rw [← List.append_assoc (draft.current.take count), List.take_append_drop]
  have sliced := Buffer.slice_between split
  rwa [List.length_take, Nat.min_eq_left inside] at sliced

theorem Holds.slice_before (holds : editor.Holds draft) :
    editor.buffer.slice draft.start draft.offset = draft.before := by
  have slice := holds.slice_prefix draft.column
    (by rw [draft.length_current]; omega)
  rwa [Draft.current, Draft.column, List.take_left] at slice

theorem Holds.slice_after (holds : editor.Holds draft) :
    editor.buffer.slice draft.offset draft.stop = draft.after := by
  have split : editor.buffer.toList =
      draft.leading ++ draft.after ++
        ((if draft.below.isEmpty then [] else separator) ++ flow false draft.below) := by
    rw [holds.text, draft.text_eq, Draft.trailing]
    simp only [List.append_assoc]
  have reach : draft.offset + draft.after.length = draft.stop := by
    rw [Draft.stop, draft.length_current, Draft.offset]
    omega
  have slice := Buffer.slice_between split
  rwa [draft.length_leading, reach] at slice

end Holds

variable [Coordinate κ]

/-- The lines have the spans of a draft.  Those below the caret's line are up to
date; of the caret's line and those above only the spans are known. -/
structure Laid (editor : Editor κ) (upper : List (Line κ)) (line : Line κ) (draft : Draft) :
    Prop extends Holds editor draft where
  table : editor.lines.lines =
    upper ++ line :: ruled editor.look.rule false (draft.row + 1)
      (draft.stop + separatorLength) draft.below
  upper_outline : upper.map Line.outline = ruled (slot editor.lines.layout) true 0 0 draft.above
  line_outline : line.outline =
    slot editor.lines.layout draft.row draft.start draft.current false

/-- The lines are those that the draft's texts have to have. -/
structure Represents (editor : Editor κ) (draft : Draft) : Prop
    extends Holds editor draft where
  table : editor.lines.lines = ruled editor.look.rule false 0 0 draft.lines

/-- What holds of an editor between two calls. -/
structure Shows (editor : Editor κ) (draft : Draft) : Prop
    extends Represents editor draft where
  unbroken : draft.UnbrokenLines
  indentLevel : editor.cursor.indentLevel =
    indentUnits editor.options.tabSize (draft.current.takeWhile isBlank)

/-- The blink, the watch, the remembered column and the like do not show. -/
theorem Shows.of_same {editor next : Editor κ} {draft : Draft} (shows : editor.Shows draft)
    (buffer : next.buffer = editor.buffer) (lines : next.lines = editor.lines)
    (cursor : next.cursor = editor.cursor) (look : next.look = editor.look) :
    next.Shows draft where
  toHolds := shows.toHolds.of_same buffer (congrArg Cursor.line cursor)
    (congrArg Cursor.caret cursor)
  table := by rw [lines, look, shows.table]
  unbroken := shows.unbroken
  indentLevel := by
    have options : next.options = editor.options := congrArg Look.options look
    rw [cursor, options, shows.indentLevel]

section Laid

variable {editor : Editor κ} {upper : List (Line κ)} {line : Line κ} {draft : Draft}

theorem Laid.length_upper (laid : editor.Laid upper line draft) :
    upper.length = draft.row := by
  have same := congrArg List.length laid.upper_outline
  rwa [List.length_map, length_ruled] at same

theorem Laid.size (laid : editor.Laid upper line draft) :
    editor.lines.size = draft.row + 1 + draft.below.length := by
  rw [LineTable.size, laid.table]
  simp [laid.length_upper]
  omega

theorem Laid.get?_row (laid : editor.Laid upper line draft) :
    editor.lines.get? draft.row = some line := by
  rw [LineTable.get?, laid.table, ← laid.length_upper]
  simp

theorem Laid.currentLine_eq (laid : editor.Laid upper line draft) :
    editor.currentLine = .ok line := by
  rw [currentLine, laid.row, LineTable.get, laid.get?_row]

theorem Laid.line_start (laid : editor.Laid upper line draft) : line.start = draft.start :=
  congrArg Line.start laid.line_outline

theorem Laid.line_stop (laid : editor.Laid upper line draft) : line.stop = draft.stop :=
  congrArg Line.stop laid.line_outline

end Laid

section Represents

variable {editor : Editor κ} {draft : Draft}

/-- An editor that represents a draft has its spans, with every line up to
date. -/
theorem Represents.laid (represents : editor.Represents draft) :
    editor.Laid (ruled editor.look.rule true 0 0 draft.above)
      (editor.look.rule draft.row draft.start draft.current (!draft.below.isEmpty)) draft where
  toHolds := represents.toHolds
  table := by
    rw [represents.table, Draft.lines, ruled_append_cons, Nat.zero_add, Nat.zero_add]
    rfl
  upper_outline := map_outline_ruled editor.look true 0 0 draft.above
  line_outline := rfl

theorem Represents.size (represents : editor.Represents draft) :
    editor.lines.size = draft.lines.length := by
  rw [LineTable.size, represents.table, length_ruled]

/-- Every line of the table is ruled from the draft's line. -/
theorem Represents.get?_eq (represents : editor.Represents draft) (index : Nat) :
    editor.lines.get? index =
      draft.lines[index]?.map fun text =>
        editor.look.rule index (draft.startOf index) text
          (decide (index + 1 < draft.lines.length)) := by
  rw [LineTable.get?, represents.table, getElem?_ruled]
  simp [Draft.startOf]

theorem Represents.get_eq (represents : editor.Represents draft) {index : Nat}
    {text : List Char} (found : draft.lines[index]? = some text) :
    editor.lines.get index =
      .ok (editor.look.rule index (draft.startOf index) text
        (decide (index + 1 < draft.lines.length))) := by
  rw [LineTable.get, represents.get?_eq, found]
  rfl

/-- Every line of the table stands for one of the draft. -/
theorem Represents.exists_text (represents : editor.Represents draft) {index : Nat}
    {line : Line κ} (found : editor.lines.get? index = some line) :
    ∃ text, draft.lines[index]? = some text ∧
      line = editor.look.rule index (draft.startOf index) text
        (decide (index + 1 < draft.lines.length)) := by
  rw [represents.get?_eq, Option.map_eq_some_iff] at found
  obtain ⟨text, here, same⟩ := found
  exact ⟨text, here, same.symm⟩

/-- The line of the caret is ruled from the draft's. -/
theorem Represents.currentLine_eq (represents : editor.Represents draft) :
    editor.currentLine =
      .ok (editor.look.rule draft.row draft.start draft.current (!draft.below.isEmpty)) :=
  represents.laid.currentLine_eq

theorem Represents.get?_cursor (represents : editor.Represents draft) :
    editor.lines.get? editor.cursor.line =
      some (editor.look.rule draft.row draft.start draft.current (!draft.below.isEmpty)) := by
  rw [represents.row, represents.laid.get?_row]

/-- The texts of the lines, and what lines are made by, determine the table. -/
theorem Represents.lines_eq {other : Editor κ} {target : Draft}
    (represents : editor.Represents draft) (others : other.Represents target)
    (lines : draft.lines = target.lines) (look : editor.look = other.look) :
    editor.lines = other.lines := by
  have layout : editor.lines.layout = other.lines.layout := congrArg Look.layout look
  have table : editor.lines.lines = other.lines.lines := by
    rw [represents.table, others.table, lines, look]
  exact (LineTable.mk.injEq ..).mpr ⟨table, layout⟩

end Represents

/-! ## From spans to lines -/

/-- Rebuilding a line with the span of a text gives the line of that text. -/
theorem rebuilt_eq {editor : Editor κ} {line : Line κ} {index : Nat}
    {prior text following : List Char} {other : Bool}
    (outline : line.outline = slot editor.lines.layout index prior.length text other)
    (whole : editor.buffer.toList = prior ++ text ++ following) (followed : Bool) :
    editor.rebuilt followed line = editor.look.rule index prior.length text followed := by
  have chars : editor.charsOf line = text := by
    have starts : line.start = prior.length := congrArg Line.start outline
    have stops : line.stop = prior.length + text.length := congrArg Line.stop outline
    rw [charsOf, starts, stops, Buffer.slice_between whole]
  unfold rebuilt
  rw [chars]
  cases line
  injection outline with index start stop _ origin _
  simp only at index start stop origin
  subst index start stop origin
  rfl

/-- Rebuilding a stretch of lines with the spans of some texts gives the lines of
those texts. -/
theorem mapIdx_rebuilt {editor : Editor κ} (closed : Bool) (count : Nat) :
    ∀ (texts : List (List Char)) (lines : List (Line κ)) (index : Nat)
      (prior following : List Char),
      lines.map Line.outline =
        ruled (slot editor.lines.layout) closed index prior.length texts →
      editor.buffer.toList = prior ++ flow closed texts ++ following →
      (if closed then index + texts.length < count else index + texts.length = count) →
      lines.mapIdx
          (fun place line => editor.rebuilt (decide (index + place + 1 < count)) line) =
        ruled editor.look.rule closed index prior.length texts
  | [], lines, index, prior, following, outlines, whole, reach => by
      have empty : lines = [] := List.map_eq_nil_iff.mp outlines
      rw [empty]
      rfl
  | text :: later, lines, index, prior, following, outlines, whole, reach => by
      obtain ⟨line, rest, rfl, outline, outlines⟩ := List.map_eq_cons_iff.mp outlines
      -- A line's separator shows in the size of the table, and in the texts that are left.
      have follows : decide (index + 1 < count) = (closed || !later.isEmpty) := by
        cases closed <;> cases later <;> simp at reach ⊢ <;> omega
      have around : editor.buffer.toList = prior ++ text ++
          ((if closed || !later.isEmpty then separator else []) ++ flow closed later ++
            following) := by
        rw [whole, flow]
        simp only [List.append_assoc]
      have head := rebuilt_eq outline around (decide (index + 1 < count))
      cases later with
      | nil =>
          have empty : rest = [] := List.map_eq_nil_iff.mp outlines
          subst empty
          rw [follows] at head
          simpa [ruled, follows] using head
      | cons next others =>
          have offset : (prior ++ text ++ separator).length =
              prior.length + text.length + separatorLength := by
            simp [Nat.add_assoc]
          have reaches : if closed then index + 1 + (next :: others).length < count
              else index + 1 + (next :: others).length = count := by
            cases closed <;> simp at reach ⊢ <;> omega
          have tail := mapIdx_rebuilt closed count (next :: others) rest (index + 1)
            (prior ++ text ++ separator) following
            (by rw [outlines, offset])
            (by rw [whole, flow]; simp)
            reaches
          have places : (fun place line =>
              editor.rebuilt (decide (index + (place + 1) + 1 < count)) line) =
              fun place line => editor.rebuilt (decide (index + 1 + place + 1 < count)) line := by
            funext place line
            rw [show index + (place + 1) + 1 = index + 1 + place + 1 by omega]
          rw [List.mapIdx_cons, Nat.add_zero, head, follows, ruled, places, tail, offset]

end Editor

end EditorCore
