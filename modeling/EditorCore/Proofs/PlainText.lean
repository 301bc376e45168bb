import EditorCore.Proofs.UpToDate

/-!
Contract: the editor is a plain text editor on a list of lines.

Owns:
- `PlainText`, lines with a position, and the edits of it by taking, dropping
  and joining lists;
- `Edit`, the edits as data, when each is accepted and what it then does;
- `Editor.Reads`, the plain text that an editor stands for, and that every edit
  of a reachable editor does what it does to the plain text.

Does not own: offsets, spans, or any bookkeeping of them.
-/

namespace EditorCore

/-- A list of lines and a position in it. -/
structure PlainText where
  lines : List (List Char)
  row : Nat
  column : Nat
deriving DecidableEq, Repr

/-- An edit of a text. -/
inductive Edit where
  | character (char : Char)
  | newline
  | tab
  | backspace
  | outdent
  | paste (text : String)
deriving DecidableEq, Repr

namespace PlainText

variable {κ : Type}

/-! ## Reading -/

def current (plain : PlainText) : List Char := plain.lines.getD plain.row []

/-- The line on the left of the position. -/
def left (plain : PlainText) : List Char := plain.current.take plain.column

/-- The line on the right of the position. -/
def right (plain : PlainText) : List Char := plain.current.drop plain.column

/-- The number of characters, two for the break between each two lines. -/
def length (plain : PlainText) : Nat :=
  plain.lines.flatten.length + 2 * (plain.lines.length - 1)

/-- There is a line, no line has a break in it, and the position exists. -/
structure WellFormed (plain : PlainText) : Prop where
  unbroken : ∀ line ∈ plain.lines, Unbroken line
  row : plain.row < plain.lines.length
  column : plain.column ≤ plain.current.length

/-! ## Editing -/

/-- Other lines in place of the line of the position. -/
def replaced (plain : PlainText) (lines : List (List Char)) (row column : Nat) : PlainText where
  lines := plain.lines.take plain.row ++ lines ++ plain.lines.drop (plain.row + 1)
  row
  column

def type (capacity : Nat) (plain : PlainText) (run : List Char) : Verdict PlainText :=
  .within capacity (plain.length + run.length)
    (plain.replaced [plain.left ++ run ++ plain.right] plain.row (plain.column + run.length))

/-- The indent units that a new line repeats: those of the blanks on the left of
the position. -/
def level (options : Options κ) (plain : PlainText) : Nat :=
  if options.autoIndent then indentUnits options.tabSize (plain.left.takeWhile isBlank) else 0

/-- What becomes of a new line. -/
def enter (options : Options κ) (capacity : Nat) (plain : PlainText) : Verdict PlainText :=
  let unit := options.indentUnit.chars
  let level := plain.level options
  if options.multiline then
    .within capacity (plain.length + 2 + level * unit.length)
      (plain.replaced [plain.left, (List.replicate level unit).flatten ++ plain.right]
        (plain.row + 1) (level * unit.length))
  else .declined

/-- So many characters removed on the left of the position. -/
def erased (plain : PlainText) (count : Nat) : PlainText :=
  plain.replaced [plain.left.take (plain.column - count) ++ plain.right] plain.row
    (plain.column - count)

/-- The line of the position joined onto the one above. -/
def joinedAbove (plain : PlainText) : PlainText :=
  let above := plain.lines.getD (plain.row - 1) []
  { lines := plain.lines.take (plain.row - 1) ++ [above ++ plain.current] ++
      plain.lines.drop (plain.row + 1)
    row := plain.row - 1
    column := above.length }

def stepBack (options : Options κ) (plain : PlainText) : Verdict PlainText :=
  if 0 < plain.column ∧ plain.column = leadingBlanks plain.current then
    .accepted (plain.erased (outdentWidth plain.left options.indentUnit.chars.length))
  else if 0 < plain.column then .accepted (plain.erased 1)
  else if 0 < plain.row then .accepted plain.joinedAbove
  else .declined

/-- Pieces on lines of their own, the first after a left part and the last before
a right part. -/
def glued (left right : List Char) : List (List Char) → List (List Char)
  | [] => [left ++ right]
  | [piece] => [left ++ piece ++ right]
  | piece :: later => (left ++ piece) :: glued [] right later

/-- Pieces put at the position, each but the first on a line of its own. -/
def pasted (plain : PlainText) (pieces : List (List Char)) : PlainText :=
  plain.replaced (glued plain.left plain.right pieces) (plain.row + (pieces.length - 1))
    ((if pieces.length ≤ 1 then plain.column else 0) + (pieces.getLastD []).length)

def paste (options : Options κ) (capacity : Nat) (plain : PlainText) (pieces : List (List Char)) :
    Verdict PlainText :=
  if 1 < pieces.length ∧ options.multiline = false then .declined
  else .within capacity (plain.length + joinedLength pieces) (plain.pasted pieces)

/-- What becomes of an edit. -/
def judge (options : Options κ) (capacity : Nat) (plain : PlainText) : Edit → Verdict PlainText
  | .character char =>
      if isBreak char then plain.enter options capacity else plain.type capacity [char]
  | .newline => plain.enter options capacity
  | .tab => plain.type capacity options.indentUnit.chars
  | .backspace | .outdent => plain.stepBack options
  | .paste text => plain.paste options capacity (segments text.toList)

/-- A loaded document, with the position at its end. -/
def loaded (text : String) : PlainText where
  lines := segments text.toList
  row := (segments text.toList).length - 1
  column := ((segments text.toList).getLastD []).length

end PlainText

/-! ## Drafts as plain texts -/

namespace Draft

variable {κ : Type} (draft : Draft)

def plain : PlainText where
  lines := draft.lines
  row := draft.row
  column := draft.column

@[simp]
theorem lines_plain : draft.plain.lines = draft.lines := rfl

@[simp]
theorem row_plain : draft.plain.row = draft.row := rfl

@[simp]
theorem column_plain : draft.plain.column = draft.column := rfl

@[simp]
theorem current_plain : draft.plain.current = draft.current := by
  rw [PlainText.current, List.getD_eq_getElem?_getD]
  change draft.lines[draft.row]?.getD [] = draft.current
  rw [draft.getElem?_lines_row]
  rfl

@[simp]
theorem left_plain : draft.plain.left = draft.before := by
  rw [PlainText.left, current_plain]
  exact List.take_left

@[simp]
theorem right_plain : draft.plain.right = draft.after := by
  rw [PlainText.right, current_plain]
  exact List.drop_left

theorem length_plain : draft.plain.length = draft.text.length := by
  rw [text, length_flow_false, PlainText.length, joinedLength, Nat.mul_comm 2]
  rfl

/-- Replacing the line of the position leaves those above and below it. -/
theorem replaced_plain (lines : List (List Char)) (row column : Nat) :
    draft.plain.replaced lines row column =
      { lines := draft.above ++ lines ++ draft.below, row, column } := by
  have above : draft.lines.take draft.row = draft.above := List.take_left
  have below : draft.lines.drop (draft.row + 1) = draft.below := by
    rw [Draft.lines, Draft.row, List.drop_length_add_append]
    rfl
  simp only [PlainText.replaced, plain, above, below]

/-- Typing a run is the same in the draft and in the plain text. -/
theorem plain_type (capacity : Nat) (run : List Char) :
    (draft.type capacity run).map plain = draft.plain.type capacity run := by
  rw [type, Verdict.map_within, PlainText.type, length_plain, left_plain, right_plain,
    replaced_plain]
  congr 1
  simp [plain, typed, Draft.lines, Draft.current, Draft.row, Draft.column]

/-- A split line, with a run put at the start of its lower part. -/
theorem plain_opened_typed (run : List Char) :
    (draft.opened.typed run).plain =
      draft.plain.replaced [draft.before, run ++ draft.after] (draft.row + 1) run.length := by
  rw [replaced_plain]
  simp [plain, opened, typed, Draft.lines, Draft.current, Draft.row, Draft.column]

theorem level_plain (options : Options κ) : draft.plain.level options = draft.level options := by
  rw [PlainText.level, left_plain, Draft.level]

/-- Enter is the same in the draft and in the plain text. -/
theorem plain_enter (options : Options κ) (capacity : Nat) :
    (draft.enter options capacity).map plain = draft.plain.enter options capacity := by
  unfold Draft.enter PlainText.enter
  simp only [level_plain, left_plain, right_plain, length_plain, IndentUnit.length_chars]
  split
  · rw [Verdict.map_within, entered, plain_opened_typed, length_indentation, Nat.add_assoc]
    rfl
  · rfl

theorem plain_shortened (count : Nat) :
    (draft.shortened count).plain = draft.plain.erased count := by
  have column : (draft.shortened count).column = draft.plain.column - count := by
    simp [Draft.column, shortened, plain]
  have lines : (draft.shortened count).lines =
      draft.above ++ [draft.before.take (draft.plain.column - count) ++ draft.after] ++
        draft.below := by
    simp [Draft.lines, Draft.current, shortened, plain]
  rw [PlainText.erased, replaced_plain, left_plain, right_plain, plain, column, lines]
  rfl

theorem plain_foldedOnto {higher : List (List Char)} {last : List Char}
    (split : draft.above = higher ++ [last]) :
    (draft.foldedOnto higher last).plain = draft.plain.joinedAbove := by
  have row : draft.row - 1 = higher.length := by simp [Draft.row, split]
  have lines : draft.lines = higher ++ last :: draft.current :: draft.below := by
    simp [Draft.lines, split]
  have above : draft.lines.getD (draft.row - 1) [] = last := by
    rw [row, lines, List.getD_eq_getElem?_getD]
    simp
  have before : draft.lines.take (draft.row - 1) = higher := by
    rw [row, lines]
    exact List.take_left
  have below : draft.lines.drop (draft.row + 1) = draft.below := by
    rw [Draft.lines, Draft.row, List.drop_length_add_append]
    rfl
  have joined : draft.plain.joinedAbove =
      { lines := higher ++ [last ++ draft.current] ++ draft.below
        row := higher.length
        column := last.length } := by
    unfold PlainText.joinedAbove
    rw [lines_plain, row_plain, current_plain, above, before, below, row]
  rw [joined, plain]
  simp [foldedOnto, Draft.lines, Draft.row, Draft.column, Draft.current]

/-- Backspace is the same in the draft and in the plain text. -/
theorem plain_stepBack (options : Options κ) :
    (draft.stepBack options).map plain = draft.plain.stepBack options := by
  unfold Draft.stepBack Draft.eraseChar PlainText.stepBack
  rw [current_plain, left_plain, IndentUnit.length_chars, row_plain, column_plain]
  change Verdict.map plain (if draft.AtIndentBoundary then _ else _) =
    if draft.AtIndentBoundary then _ else _
  by_cases boundary : draft.AtIndentBoundary
  · rw [if_pos boundary, if_pos boundary, ← plain_shortened]
    rfl
  · rw [if_neg boundary, if_neg boundary]
    by_cases inLine : 0 < draft.column
    · rw [if_pos inLine, if_pos inLine, ← plain_shortened]
      rfl
    · rw [if_neg inLine, if_neg inLine]
      by_cases more : 0 < draft.row
      · obtain ⟨higher, last, split⟩ := exists_above more
        rw [if_pos more, folded?_eq split, ← draft.plain_foldedOnto split]
        rfl
      · have first : draft.above = [] := List.eq_nil_of_length_eq_zero (Nat.eq_zero_of_not_pos more)
        rw [if_neg more, folded?, first]
        rfl

/-! ### Pasting -/

theorem glued_cons (left right piece : List Char) (later : List (List Char)) :
    PlainText.glued left right (piece :: later) =
      PlainText.glued (left ++ piece) right ([] :: later) := by
  cases later <;> simp [PlainText.glued]

/-- The lines of a streamed draft: what is on the left of the caret already takes
the place of a first piece. -/
theorem lines_streamed (pieces : List (List Char)) :
    (draft.streamed pieces).lines =
      draft.above ++ PlainText.glued draft.before draft.after ([] :: pieces) ++ draft.below := by
  induction pieces generalizing draft with
  | nil => simp [streamed, Draft.lines, Draft.current, PlainText.glued]
  | cons piece later inductionHypothesis =>
      have first : PlainText.glued draft.before draft.after ([] :: piece :: later) =
          draft.before :: PlainText.glued piece draft.after ([] :: later) := by
        rw [← List.nil_append piece, ← glued_cons, PlainText.glued, List.append_nil,
          List.nil_append]
        exact List.cons_ne_nil piece later
      rw [streamed, inductionHypothesis, first]
      simp [opened, typed]

theorem row_streamed (pieces : List (List Char)) :
    (draft.streamed pieces).row = draft.row + pieces.length := by
  induction pieces generalizing draft with
  | nil => rfl
  | cons piece later inductionHypothesis =>
      rw [streamed, inductionHypothesis, List.length_cons]
      simp [opened, typed, Draft.row]
      omega

theorem before_streamed (pieces : List (List Char)) :
    (draft.streamed pieces).before = pieces.getLastD draft.before := by
  induction pieces generalizing draft with
  | nil => rfl
  | cons piece later inductionHypothesis =>
      rw [streamed, inductionHypothesis, List.getLastD_cons]
      rfl

/-- Pasted pieces stand in the plain text as in the draft. -/
theorem plain_pasted {pieces : List (List Char)} (some : pieces ≠ []) :
    (draft.pasted pieces).plain = draft.plain.pasted pieces := by
  cases pieces with
  | nil => exact absurd rfl some
  | cons first later =>
      have lines : (draft.pasted (first :: later)).lines =
          draft.above ++ PlainText.glued draft.before draft.after (first :: later) ++
            draft.below := by
        rw [pasted, lines_streamed, glued_cons draft.before]
        rfl
      have row : (draft.pasted (first :: later)).row =
          draft.row + ((first :: later).length - 1) := row_streamed (draft.typed first) later
      have column : (draft.pasted (first :: later)).column =
          (if (first :: later).length ≤ 1 then draft.column else 0) +
            ((first :: later).getLastD []).length := by
        rw [Draft.column, pasted, before_streamed]
        cases later with
        | nil => simp [typed, Draft.column]
        | cons next others =>
            rw [List.getLastD_cons, List.getLastD_cons, List.getLastD_cons]
            simp
      rw [PlainText.pasted, left_plain, right_plain, row_plain, column_plain, replaced_plain, plain,
        lines, row, column]

/-- A paste is the same in the draft and in the plain text. -/
theorem plain_paste (options : Options κ) (capacity : Nat) {pieces : List (List Char)}
    (some : pieces ≠ []) :
    (draft.paste options capacity pieces).map plain =
      draft.plain.paste options capacity pieces := by
  unfold Draft.paste PlainText.paste
  rw [length_plain]
  split
  · rfl
  · rw [Verdict.map_within, draft.plain_pasted some]

/-- A document is pasted into a blank draft. -/
theorem plain_loaded (text : String) :
    (blank.pasted (segments text.toList)).plain = PlainText.loaded text := by
  have whole : ∀ pieces, pieces ≠ [] → PlainText.glued [] [] pieces = pieces := by
    intro pieces
    induction pieces with
    | nil => exact fun some => absurd rfl some
    | cons piece later inductionHypothesis =>
        intro _
        cases later with
        | nil => simp [PlainText.glued]
        | cons next others =>
            rw [PlainText.glued, inductionHypothesis (List.cons_ne_nil next others)]
            · rfl
            · exact List.cons_ne_nil next others
  have some := segments_ne_nil text.toList
  have column : (if (segments text.toList).length ≤ 1 then blank.column else 0) = 0 := ite_self 0
  rw [plain_pasted _ some, PlainText.pasted, left_plain, right_plain, row_plain, column_plain,
    replaced_plain, column]
  change PlainText.mk ([] ++ PlainText.glued [] [] (segments text.toList) ++ []) (0 + _) (0 + _) = _
  rw [whole _ some, List.nil_append, List.append_nil, Nat.zero_add, Nat.zero_add]
  rfl

end Draft

/-! ## Edits as calls -/

namespace Edit

/-- The call that asks an editor for an edit. -/
def call {κ : Type} : Edit → Call κ
  | .character char => .insertChar char
  | .newline => .insertLine
  | .tab => .indent
  | .backspace => .deleteChar
  | .outdent => .outdent
  | .paste text => .paste text

/-- What the call reports of a verdict. -/
def answer (capacity : Nat) : Edit → Verdict PlainText → Answer
  | .paste _, .accepted _ => .pasted (.ok true)
  | .paste _, .declined => .pasted (.ok false)
  | .paste _, .full required => .pasted (.error (.capacityExceeded required capacity))
  | _, .accepted _ => .applied true
  | _, _ => .applied false

end Edit

namespace Editor

variable {κ : Type} [Coordinate κ]

/-- The plain text that an editor stands for. -/
structure Reads (editor : Editor κ) (plain : PlainText) : Prop where
  lines : ∀ index, editor.lineChars? index = plain.lines[index]?
  position : editor.position = .ok { line := plain.row, column := plain.column }
  text : editor.buffer.toList = joined plain.lines

/-- An edit is carried out as a verdict on the plain text says.  A refusal for
want of room has to be able to name the length that it needs. -/
def Follows (editor : Editor κ) (edit : Edit) (verdict : Verdict PlainText) : Prop :=
  let answer := edit.answer editor.buffer.capacity verdict
  match verdict with
  | .accepted after =>
      ∃ next, editor.step edit.call = .ok (next, answer) ∧ next.Reads after ∧
        next.options = editor.options ∧ next.buffer.capacity = editor.buffer.capacity
  | .declined => editor.step edit.call = .ok (editor, answer)
  | .full required => editor.step edit.call = ifWord required (editor, answer)

/-- A document takes the place of the text if it fits, and only then. -/
def FollowsLoad (editor : Editor κ) (text : String) : Prop :=
  let required := joinedLength (segments text.toList)
  if required ≤ editor.buffer.capacity then
    ∃ next, editor.step (.loadDocument text) = .ok (next, .loaded (.ok ())) ∧
      next.Reads (PlainText.loaded text) ∧ next.options = editor.options ∧
      next.buffer.capacity = editor.buffer.capacity
  else
    editor.step (.loadDocument text) =
      .ok (editor, .loaded (.error (.capacityExceeded required editor.buffer.capacity)))

section

variable {editor : Editor κ} {draft : Draft}

omit [Coordinate κ] in
/-- The lines of the plain text are those of the editor. -/
theorem Reads.lines_eq {plain : PlainText} (reads : editor.Reads plain) :
    editor.lines.lines.map editor.charsOf = plain.lines := by
  apply List.ext_getElem?
  intro index
  rw [← reads.lines, List.getElem?_map]
  rfl

/-- An editor that shows a draft stands for its plain text. -/
theorem Shows.reads (shows : editor.Shows draft) : editor.Reads draft.plain where
  lines := by
    intro index
    rw [Editor.lineChars?, shows.get?_eq, Option.map_map]
    change _ = draft.lines[index]?
    cases found : draft.lines[index]? with
    | none => rfl
    | some text => exact congrArg some (shows.charsOf_rule found _)
  position := shows.position_eq
  text := by rw [shows.text, joined_eq_flow]; rfl

theorem Shows.wellFormed (shows : editor.Shows draft) : draft.plain.WellFormed where
  unbroken := shows.unbroken
  row := draft.row_lt_length_lines
  column := by
    rw [Draft.current_plain, draft.length_current]
    exact Nat.le_add_right _ _

theorem Settled.options {next : Editor κ} {desired : Option Nat}
    (settled : Settled editor next desired draft) : next.options = editor.options :=
  congrArg (fun around => around.look.options) settled.around

theorem Settled.capacity {next : Editor κ} {desired : Option Nat}
    (settled : Settled editor next desired draft) :
    next.buffer.capacity = editor.buffer.capacity :=
  congrArg Surroundings.capacity settled.around

/-- The verdict on a draft is carried over to the plain text. -/
theorem Ends.follows {α : Type} {yes no : α} {full : Nat → α} {report : α → Answer} {edit : Edit}
    {verdict : Verdict Draft} {outcome : Checked (Editor κ × α)}
    (ends : editor.Ends yes no full verdict outcome)
    (steps : editor.step edit.call = do
      let (next, result) ← outcome
      return (next, report result))
    (accepts : ∀ after, edit.answer editor.buffer.capacity (.accepted after) = report yes)
    (declines : edit.answer editor.buffer.capacity .declined = report no)
    (fills : ∀ required,
      edit.answer editor.buffer.capacity (.full required) = report (full required)) :
    editor.Follows edit (verdict.map Draft.plain) := by
  cases verdict with
  | accepted target =>
      obtain ⟨next, rfl, settled⟩ := ends
      refine ⟨next, ?_, settled.reads, settled.options, settled.capacity⟩
      rw [steps, Verdict.map, accepts]
      rfl
  | declined =>
      subst ends
      change editor.step edit.call = .ok (editor, _)
      rw [steps, Verdict.map, declines]
      rfl
  | full required =>
      subst ends
      change editor.step edit.call = ifWord required (editor, _)
      rw [steps, Verdict.map, fills]
      exact ifWord_bind rfl

/-- A typed character follows the verdict on Enter or on a run of one. -/
theorem Shows.follows_character (shows : editor.Shows draft) (char : Char) :
    editor.Follows (.character char)
      (draft.plain.judge editor.options editor.buffer.capacity (.character char)) := by
  rw [PlainText.judge]
  by_cases ends : isBreak char = true
  · have same : editor.insertChar char = editor.insertLine := if_pos ends
    rw [if_pos ends, ← draft.plain_enter]
    exact Ends.follows shows.insertLine (by rw [← same]; rfl) (fun _ => rfl) rfl fun _ => rfl
  · have same : editor.insertChar char = editor.typeRun [char] := if_neg ends
    have clean : Unbroken [char] := unbroken_singleton.mpr (Bool.eq_false_iff.mpr ends)
    rw [if_neg ends, ← draft.plain_type]
    exact Ends.follows (shows.typeRun clean) (by rw [← same]; rfl) (fun _ => rfl) rfl
      fun _ => rfl

/-- A paste follows the verdict; one of nothing changes nothing. -/
theorem Shows.follows_paste (shows : editor.Shows draft) (text : String) :
    editor.Follows (.paste text)
      (draft.plain.judge editor.options editor.buffer.capacity (.paste text)) := by
  rw [PlainText.judge, ← draft.plain_paste _ _ (segments_ne_nil text.toList)]
  by_cases empty : text.toList = []
  · have unchanged : draft.paste editor.options editor.buffer.capacity (segments text.toList) =
        .accepted draft := by
      rw [empty]
      exact Draft.paste_empty editor.options shows.bounded
    have pastes : editor.paste text = .ok (editor, .ok true) := if_pos empty
    rw [unchanged]
    refine ⟨editor, ?_, shows.reads, rfl, rfl⟩
    change (editor.paste text >>= _) = _
    rw [pastes]
    rfl
  · exact Ends.follows (shows.paste empty) rfl (fun _ => rfl) rfl fun _ => rfl

/-- The step lemma: every edit follows its verdict on the plain text. -/
theorem Shows.follows (shows : editor.Shows draft) (edit : Edit) :
    editor.Follows edit
      (draft.plain.judge editor.options editor.buffer.capacity edit) := by
  cases edit with
  | character char => exact shows.follows_character char
  | newline =>
      rw [PlainText.judge, ← draft.plain_enter]
      exact Ends.follows shows.insertLine rfl (fun _ => rfl) rfl fun _ => rfl
  | tab =>
      rw [PlainText.judge, ← draft.plain_type]
      exact Ends.follows shows.indent rfl (fun _ => rfl) rfl fun _ => rfl
  | backspace =>
      rw [PlainText.judge, ← draft.plain_stepBack]
      exact Ends.follows shows.outdent (by rw [← shows.deleteChar_eq]; rfl) (fun _ => rfl) rfl
        fun _ => rfl
  | outdent =>
      rw [PlainText.judge, ← draft.plain_stepBack]
      exact Ends.follows shows.outdent rfl (fun _ => rfl) rfl fun _ => rfl
  | paste text => exact shows.follows_paste text

/-- Loading follows the length of the document and nothing else. -/
theorem Shows.followsLoad (shows : editor.Shows draft) (text : String) :
    editor.FollowsLoad text := by
  unfold FollowsLoad
  by_cases fits : joinedLength (segments text.toList) ≤ editor.buffer.capacity
  · obtain ⟨next, loads, settled⟩ := shows.loadDocument fits
    rw [if_pos fits]
    refine ⟨next, ?_, ?_, settled.options, settled.capacity⟩
    · rw [Editor.step, loads]
      rfl
    · rw [← Draft.plain_loaded]
      exact settled.reads
  · rw [if_neg fits, Editor.step, loadDocument_of_full (Nat.lt_of_not_le fits)]
    rfl

end

/-- A reachable editor is a plain text: every edit is accepted exactly when the
plain text has room and use for it, does to the editor what it does to the plain
text, and leaves the editor as it was otherwise. -/
theorem refines_plainText {editor : Editor κ} (reachable : editor.Reachable) :
    ∃ plain, editor.Reads plain ∧ plain.WellFormed ∧
      (∀ edit, editor.Follows edit
        (plain.judge editor.options editor.buffer.capacity edit)) ∧
      ∀ text, editor.FollowsLoad text := by
  obtain ⟨draft, shows⟩ := reachable.shows
  exact ⟨draft.plain, shows.reads, shows.wellFormed, shows.follows, shows.followsLoad⟩

/-- A paste of two lines into the first of three. -/
theorem refines_plainText_standard :
    ∃ (editor next : Editor Float32) (answers : List Answer),
      standard.run [.loadDocument "go\r\n\nx", .moveToPosition { line := 0, column := 1 }] =
        .ok (editor, answers) ∧
      editor.Reads { lines := [['g', 'o'], [], ['x']], row := 0, column := 1 } ∧
      editor.step (.paste "a\nb") = .ok (next, .pasted (.ok true)) ∧
      next.Reads { lines := [['g', 'a'], ['b', 'o'], [], ['x']], row := 1, column := 1 } := by
  obtain ⟨editor, answers, runs, reachable, lines, position, multiline, capacity⟩ :=
    reachable_standard.of_run_to
      [.loadDocument "go\r\n\nx", .moveToPosition { line := 0, column := 1 }]
      (fun editor => editor.lines.lines.map editor.charsOf = [['g', 'o'], [], ['x']] ∧
        editor.position = .ok { line := 0, column := 1 } ∧ editor.options.multiline = true ∧
        editor.buffer.capacity = 4 * 1024 * 1024)
      (by decide +kernel)
  obtain ⟨plain, reads, -, follows, -⟩ := refines_plainText reachable
  obtain ⟨row, column⟩ := Position.mk.inj (Except.ok.inj (position.symm.trans reads.position))
  obtain rfl : { lines := [['g', 'o'], [], ['x']], row := 0, column := 1 } = plain := by
    rw [PlainText.mk.injEq, ← lines]
    exact ⟨reads.lines_eq, row, column⟩
  let plain : PlainText := { lines := [['g', 'o'], [], ['x']], row := 0, column := 1 }
  have judged : plain.judge editor.options editor.buffer.capacity (.paste "a\nb") =
      .accepted { lines := [['g', 'a'], ['b', 'o'], [], ['x']], row := 1, column := 1 } := by
    rw [PlainText.judge, PlainText.paste, multiline, capacity]
    decide
  have pastes := follows (.paste "a\nb")
  rw [judged] at pastes
  obtain ⟨next, steps, after, -⟩ := pastes
  exact ⟨editor, next, answers, runs, reads, steps, after⟩

end Editor

end EditorCore
