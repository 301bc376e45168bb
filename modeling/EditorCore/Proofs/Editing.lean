import EditorCore.Editor.Editing
import EditorCore.Proofs.Splice
import EditorCore.Proofs.Verdict

/-!
Contract: each operation on the text does to an editor what it does to the draft
that the editor shows.

Owns:
- `Ends`, an outcome that is as a verdict says, and for each operation its
  verdict;
- loading, new keywords and a new place.

Does not own: sequences of operations.
-/

namespace EditorCore

/-- The answer of a refusal that names a needed length, which has to be a
word. -/
def ifWord {α : Type} (required : Nat) (answer : α) : Checked α :=
  if required ≤ Word.largest then .ok answer else .error .countTooLarge

/-- A refusal goes on to another answer. -/
theorem ifWord_bind {α β : Type} {required : Nat} {answer : α} {next : α → Checked β} {last : β}
    (answers : next answer = .ok last) :
    (ifWord required answer >>= next) = ifWord required last := by
  unfold ifWord
  split
  · exact answers
  · rfl

/-- A refusal is never an acceptance. -/
theorem ifWord_error_ne {α : Type} {required : Nat} {refusal : EditError} {accepted : α} :
    ifWord required (Except.error refusal : Except EditError α) ≠ .ok (.ok accepted) := by
  unfold ifWord
  split
  · intro same
    injection same with same
    injection same
  · intro same
    injection same

namespace Editor

variable {κ : Type}

/-- An operation on an editor ends as a verdict says: with the accepted draft,
or with the editor as it was. -/
def Ends {α : Type} [Coordinate κ] (editor : Editor κ) (yes no : α) (full : Nat → α)
    (verdict : Verdict Draft) (outcome : Checked (Editor κ × α)) : Prop :=
  match verdict with
  | .accepted draft => ∃ next, outcome = .ok (next, yes) ∧ Settled editor next none draft
  | .declined => outcome = .ok (editor, no)
  | .full required => outcome = ifWord required (editor, full required)

/-- The verdict of an operation that tells whether it had an effect. -/
def Applies [Coordinate κ] (editor : Editor κ) (verdict : Verdict Draft)
    (outcome : Checked (Editor κ × Bool)) : Prop :=
  editor.Ends true false (fun _ => false) verdict outcome

section Operations

variable {editor : Editor κ} {draft : Draft}

/-! ## Putting runs -/

/-- Without room the check refuses, with the length that is asked for. -/
theorem Holds.ensureRoom_of_full (holds : editor.Holds draft) {additional : Nat}
    (full : editor.buffer.capacity < draft.text.length + additional) :
    editor.buffer.ensureRoom additional =
      ifWord (draft.text.length + additional)
        (.error (.capacityExceeded (draft.text.length + additional) editor.buffer.capacity)) := by
  have bounded := holds.bounded
  rw [← holds.length] at full bounded ⊢
  exact Buffer.ensureRoom_of_full bounded full

/-- With room the check passes. -/
theorem Holds.ensureRoom_of_fits (holds : editor.Holds draft) {additional : Nat}
    (fits : draft.text.length + additional ≤ editor.buffer.capacity) :
    editor.buffer.ensureRoom additional = .ok (.ok ()) := by
  rw [← holds.length] at fits
  exact Buffer.ensureRoom_of_fits fits

variable [Coordinate κ]

/-- A run without room is refused before anything is put. -/
theorem Holds.insertRun_of_full (holds : editor.Holds draft) {run : List Char}
    (full : editor.buffer.capacity < draft.text.length + run.length) :
    editor.insertRun run =
      ifWord (draft.text.length + run.length)
        (.error (.capacityExceeded (draft.text.length + run.length) editor.buffer.capacity)) := by
  have bounded := holds.bounded
  have some : run ≠ [] := by
    rintro rfl
    simp only [List.length_nil] at full
    omega
  rw [← holds.length] at full bounded ⊢
  rw [insertRun, if_neg some, Buffer.insert_of_full bounded full, ifWord]
  split <;> rfl

/-- Typing a run does what the verdict on it says. -/
theorem Shows.typeRun (shows : editor.Shows draft) {run : List Char} (clean : Unbroken run) :
    editor.Applies (draft.type editor.buffer.capacity run) (editor.typeRun run) := by
  unfold Applies Draft.type Verdict.within
  split
  · rename_i fits
    obtain ⟨typed, grown, runs, laid, around⟩ := shows.laid.insertRun run fits
    obtain ⟨last, settles, settled⟩ :=
      Laid.settleLine (draft.typed run) laid shows.row (shows.unbroken.typed clean) around
    refine ⟨last, ?_, settled⟩
    rw [Editor.typeRun, runs]
    change ((typed.relexLine editor.cursor.line).settle >>= _) = _
    rw [settles]
    rfl
  · rename_i full
    have refuses := shows.insertRun_of_full (Nat.lt_of_not_le full)
    change editor.typeRun run = ifWord _ _
    rw [Editor.typeRun, refuses]
    exact ifWord_bind rfl

theorem Shows.indent (shows : editor.Shows draft) :
    editor.Applies (draft.type editor.buffer.capacity editor.options.indentUnit.chars)
      editor.indent :=
  shows.typeRun (Draft.indentUnit_unbroken editor.options.indentUnit)

/-! ## Enter -/

/-- Units that fit together are all put. -/
theorem Laid.insertUnits (count : Nat) :
    ∀ {editor : Editor κ} {upper : List (Line κ)} {line : Line κ} {draft : Draft},
      editor.Laid upper line draft →
      draft.text.length + count * editor.options.indentUnit.length ≤ editor.buffer.capacity →
      ∃ next last, editor.insertUnits count = .ok next ∧
        next.Laid upper last (draft.typed (Draft.indentation editor.options count)) ∧
        next.surroundings = editor.surroundings := by
  induction count with
  | zero =>
      intro editor upper line draft laid _
      exact ⟨editor, line, rfl, by simpa [Draft.indentation] using laid, rfl⟩
  | succ count inductionHypothesis =>
      intro editor upper line draft laid fits
      rw [Nat.succ_mul] at fits
      obtain ⟨deeper, grown, runs, deeperLaid, deeperAround⟩ :=
        laid.insertRun editor.options.indentUnit.chars
          (by rw [IndentUnit.length_chars]; omega)
      have capacity : deeper.buffer.capacity = editor.buffer.capacity :=
        congrArg Surroundings.capacity deeperAround
      have options : deeper.options = editor.options :=
        congrArg (fun around => around.look.options) deeperAround
      obtain ⟨next, last, inserts, nextLaid, nextAround⟩ :=
        inductionHypothesis deeperLaid (by
          rw [capacity, options, Draft.length_text_typed, IndentUnit.length_chars]
          omega)
      refine ⟨next, last, ?_, ?_, nextAround.trans deeperAround⟩
      · rw [Editor.insertUnits, runs]
        exact inserts
      · rw [Draft.typed_typed, options] at nextLaid
        exact nextLaid

theorem Represents.indentBeforeCaret (represents : editor.Represents draft) :
    editor.indentBeforeCaret =
      .ok (indentUnits editor.options.tabSize (draft.before.takeWhile isBlank)) := by
  have reach : min editor.cursor.caret (draft.start + leadingBlanks draft.current) =
      draft.start + min draft.column (leadingBlanks draft.current) := by
    rw [represents.caret, Draft.offset, Nat.add_min_add_left]
  have blanks := leadingBlanks_le_length draft.current
  have slice := represents.slice_prefix
    (min draft.column (leadingBlanks draft.current)) (by omega)
  rw [draft.takeWhile_before, ← reach] at slice
  rw [Editor.indentBeforeCaret, represents.currentLine_eq, ← slice]
  rfl

/-- Enter with the number of units known. -/
def openLine (editor : Editor κ) (level : Nat) : Checked (Editor κ × Bool) := do
  match ← editor.buffer.ensureRoom
      (separatorLength + level * editor.options.indentUnit.length) with
  | .error _ => return (editor, false)
  | .ok () =>
      match ← editor.splitLine with
      | .error _ => return (editor, false)
      | .ok opened =>
          let indented ← opened.insertUnits level
          let index := editor.cursor.line
          return (← ((indented.relexLine index).relexLine (index + 1)).settle, true)

/-- Enter repeats the units on the left of the caret. -/
theorem Represents.insertLine_eq (represents : editor.Represents draft)
    (multiline : editor.options.multiline = true) :
    editor.insertLine = editor.openLine (draft.level editor.options) := by
  unfold Editor.insertLine Draft.level
  rw [multiline]
  cases editor.options.autoIndent with
  | false => rfl
  | true =>
      simp only [if_true]
      rw [represents.indentBeforeCaret]
      rfl

/-- The check of Enter covers the separator and every unit. -/
theorem Represents.openUnits (represents : editor.Represents draft) (level : Nat)
    (fits : draft.text.length + (separatorLength + level * editor.options.indentUnit.length) ≤
      editor.buffer.capacity) :
    ∃ opened indented cut line, editor.splitLine = .ok (.ok opened) ∧
      opened.insertUnits level = .ok indented ∧
      indented.Laid (ruled editor.look.rule true 0 0 draft.above ++ [cut]) line
        (draft.opened.typed (Draft.indentation editor.options level)) ∧
      indented.surroundings = editor.surroundings := by
  obtain ⟨opened, cut, fresh, splits, splitLaid, splitAround⟩ :=
    represents.laid.splitLine (by omega)
  have capacity : opened.buffer.capacity = editor.buffer.capacity :=
    congrArg Surroundings.capacity splitAround
  have options : opened.options = editor.options :=
    congrArg (fun around => around.look.options) splitAround
  obtain ⟨indented, line, inserts, laid, around⟩ := splitLaid.insertUnits level (by
    rw [capacity, options, Draft.length_text_opened]
    omega)
  rw [options] at laid
  exact ⟨opened, indented, cut, line, splits, inserts, laid, around.trans splitAround⟩

/-- Both lines that Enter leaves behind are relexed, and no other line needs it. -/
theorem Shows.openLine (shows : editor.Shows draft) (level : Nat)
    (fits : draft.text.length + (separatorLength + level * editor.options.indentUnit.length) ≤
      editor.buffer.capacity) :
    ∃ last, editor.openLine level = .ok (last, true) ∧
      Settled editor last none (draft.opened.typed (Draft.indentation editor.options level)) := by
  obtain ⟨opened, indented, cut, line, splits, inserts, laid, same⟩ :=
    shows.toRepresents.openUnits level fits
  have above : (draft.opened.typed (Draft.indentation editor.options level)).above =
      draft.above ++ [draft.before] := rfl
  have row : editor.cursor.line + 1 =
      (draft.opened.typed (Draft.indentation editor.options level)).row := by
    rw [shows.row]
    exact draft.row_opened.symm
  have clean := shows.unbroken.opened.typed (Draft.indentation_unbroken editor.options level)
  obtain ⟨last, settles, settled⟩ := Laid.settleRange laid above shows.row row clean same
  refine ⟨last, ?_, settled⟩
  rw [Editor.openLine, shows.ensureRoom_of_fits fits]
  change (editor.splitLine >>= _) = _
  rw [splits]
  change (opened.insertUnits level >>= _) = _
  rw [inserts]
  change (((indented.relexLine editor.cursor.line).relexLine _).settle >>= _) = _
  rw [relexLine_relexLine, settles]
  rfl

/-- Enter splits the line and repeats its indentation. -/
theorem Shows.insertLine (shows : editor.Shows draft) :
    editor.Applies (draft.enter editor.options editor.buffer.capacity) editor.insertLine := by
  unfold Applies Draft.enter
  by_cases multiline : editor.options.multiline = true
  · rw [if_pos multiline, shows.insertLine_eq multiline]
    unfold Verdict.within
    split
    · rename_i fits
      exact shows.openLine (draft.level editor.options) fits
    · rename_i full
      change editor.openLine _ = ifWord _ _
      rw [Editor.openLine, shows.ensureRoom_of_full (Nat.lt_of_not_le full)]
      exact ifWord_bind rfl
  · rw [if_neg multiline]
    exact if_pos (Bool.eq_false_iff.mpr multiline)

/-! ## Stepping back -/

/-- The boundary of the indentation is where the leading blanks end. -/
theorem Represents.atIndentBoundary_eq (represents : editor.Represents draft) :
    editor.atIndentBoundary = .ok (decide draft.AtIndentBoundary) := by
  have boundary : (decide (draft.offset = draft.start + leadingBlanks draft.current) &&
      decide (draft.start < draft.offset)) = decide draft.AtIndentBoundary := by
    rw [← Bool.decide_and, decide_eq_decide]
    unfold Draft.AtIndentBoundary Draft.offset
    omega
  rw [Editor.atIndentBoundary, represents.currentLine_eq, ← boundary, ← represents.caret]
  rfl

/-- Removing characters of the line leaves a draft without them. -/
theorem Shows.remove (shows : editor.Shows draft) {count : Nat} (positive : 0 < count)
    (inside : count ≤ draft.column) :
    ∃ last, (do
        let removed ← editor.removeBeforeCaret count
        return (← (removed.relexLine editor.cursor.line).settle, true)) =
          (.ok (last, true) : Checked (Editor κ × Bool)) ∧
      Settled editor last none (draft.shortened count) := by
  obtain ⟨removed, shrunk, removes, laid, around⟩ := shows.laid.removeBeforeCaret positive inside
  obtain ⟨last, settles, settled⟩ :=
    Laid.settleLine (draft.shortened count) laid shows.row (shows.unbroken.shortened count) around
  refine ⟨last, ?_, settled⟩
  rw [removes]
  change ((removed.relexLine editor.cursor.line).settle >>= _) = _
  rw [settles]
  rfl

/-- Folding a line onto the one above leaves a draft with both joined. -/
theorem Shows.fold {higher : List (List Char)} {above : List Char} (shows : editor.Shows draft)
    (split : draft.above = higher ++ [above]) (atStart : draft.before = []) :
    ∃ last, (do
        let merged ← editor.mergeLine
        return (← (merged.relexLine merged.cursor.line).settle, true)) =
          (.ok (last, true) : Checked (Editor κ × Bool)) ∧
      Settled editor last none (draft.foldedOnto higher above) := by
  have laid := shows.laid
  rw [split, ruled_true_append] at laid
  obtain ⟨merged, joined, merges, mergedLaid, around⟩ := laid.mergeLine split atStart
  have clean := shows.unbroken.folded (Draft.folded?_eq split)
  obtain ⟨last, settles, settled⟩ :=
    Laid.settleLine (draft.foldedOnto higher above) mergedLaid mergedLaid.row clean around
  refine ⟨last, ?_, settled⟩
  rw [merges]
  change ((merged.relexLine merged.cursor.line).settle >>= _) = _
  rw [settles]
  rfl

/-- Backspace without regard to indentation does what the verdict says. -/
theorem Shows.deletePlain (shows : editor.Shows draft) :
    editor.Applies draft.eraseChar editor.deletePlain := by
  have line := shows.currentLine_eq
  have caret : editor.cursor.caret = draft.start + draft.column := shows.caret
  unfold Applies Draft.eraseChar
  by_cases inLine : 0 < draft.column
  · rw [if_pos inLine]
    obtain ⟨last, removes, settled⟩ := shows.remove Nat.one_pos inLine
    refine ⟨last, ?_, settled⟩
    rw [← removes, Editor.deletePlain, if_neg (by omega), line]
    exact if_neg (show ¬ editor.cursor.caret = draft.start by omega)
  · rw [if_neg inLine]
    have atStart : draft.before = [] :=
      List.eq_nil_of_length_eq_zero (Nat.eq_zero_of_not_pos inLine)
    by_cases below : 0 < draft.row
    · obtain ⟨higher, above, split⟩ := Draft.exists_above below
      rw [Draft.folded?_eq split]
      obtain ⟨last, folds, settled⟩ := shows.fold split atStart
      -- The separator of the line above keeps the caret off the front of the text.
      have past : 0 < draft.start := by
        rw [Draft.start, split, flow_true_append, flow_true_cons]
        simp only [List.length_append, length_separator, separatorLength]
        omega
      refine ⟨last, ?_, settled⟩
      rw [← folds, Editor.deletePlain, if_neg (by omega), line]
      exact if_pos (show editor.cursor.caret = draft.start by omega)
    · have first : draft.above = [] := List.eq_nil_of_length_eq_zero (Nat.eq_zero_of_not_pos below)
      have front : editor.cursor.caret = 0 := by
        rw [caret, Draft.start, first, Draft.column, atStart]
        rfl
      have none : draft.folded? = none := by
        rw [Draft.folded?, first]
        rfl
      rw [none]
      exact if_pos front

/-- At the end of the indentation a unit goes, elsewhere one character. -/
theorem Shows.outdent (shows : editor.Shows draft) :
    editor.Applies (draft.stepBack editor.options) editor.outdent := by
  unfold Draft.stepBack
  by_cases boundary : draft.AtIndentBoundary
  · rw [if_pos boundary]
    have inside := outdentWidth_le_length draft.before editor.options.indentUnit.length
    have some : draft.before ≠ [] := List.length_pos_iff.mp boundary.1
    have positive := outdentWidth_pos some editor.options.indentUnit.length_pos
    have leading : editor.buffer.slice draft.start editor.cursor.caret = draft.before := by
      rw [shows.caret, shows.slice_before]
    obtain ⟨last, removes, settled⟩ := shows.remove positive inside
    refine ⟨last, ?_, settled⟩
    rw [← removes, ← leading, Editor.outdent, shows.atIndentBoundary_eq, decide_eq_true boundary]
    change (editor.currentLine >>= _) = _
    rw [shows.currentLine_eq]
    exact if_neg (by
      change ¬ outdentWidth (editor.buffer.slice draft.start editor.cursor.caret) _ = 0
      rw [leading]
      omega)
  · rw [if_neg boundary, Editor.outdent, shows.atIndentBoundary_eq, decide_eq_false boundary]
    exact shows.deletePlain

/-- Backspace is the same step back. -/
theorem Represents.deleteChar_eq (represents : editor.Represents draft) :
    editor.deleteChar = editor.outdent := by
  rw [Editor.deleteChar, represents.atIndentBoundary_eq]
  by_cases boundary : draft.AtIndentBoundary
  · rw [decide_eq_true boundary]
    rfl
  · rw [Editor.outdent, represents.atIndentBoundary_eq, decide_eq_false boundary]
    rfl

/-! ## Pasting -/

/-- A paste that is not empty puts all of its pieces or nothing. -/
theorem Shows.paste (shows : editor.Shows draft) {text : String} (some : text.toList ≠ []) :
    editor.Ends (.ok true) (.ok false)
      (fun required => .error (.capacityExceeded required editor.buffer.capacity))
      (draft.paste editor.options editor.buffer.capacity (segments text.toList))
      (editor.paste text) := by
  have clean : ∀ piece ∈ segments text.toList, Unbroken piece := fun _ => segments_unbroken
  unfold Editor.paste
  rw [if_neg some]
  unfold Draft.paste
  by_cases single : 1 < (segments text.toList).length ∧ editor.options.multiline = false
  · rw [if_pos single, if_pos single]
    rfl
  · rw [if_neg single, if_neg single]
    unfold Verdict.within
    split
    · rename_i fits
      obtain ⟨filled, stale, line, streams, laid, around⟩ := shows.laid.streamSegments fits
      obtain ⟨others, above⟩ := draft.above_pasted (segments text.toList)
      obtain ⟨last, settles, settled⟩ :=
        Laid.settleRange laid above shows.row laid.row (shows.unbroken.pasted clean) around
      refine ⟨last, ?_, settled⟩
      rw [shows.ensureRoom_of_fits fits]
      change (editor.streamSegments (segments text.toList) >>= _) = _
      rw [streams]
      change ((filled.relexRange editor.cursor.line filled.cursor.line).settle >>= _) = _
      rw [settles]
      rfl
    · rename_i full
      change _ = ifWord _ _
      rw [shows.ensureRoom_of_full (Nat.lt_of_not_le full)]
      exact ifWord_bind rfl

/-! ## Whole documents -/

/-- The editor that a document is streamed into. -/
def cleared (editor : Editor κ) (text : String) : Editor κ :=
  { editor with
    ending := LineEnding.detect text.toList
    buffer := editor.buffer.clear
    lines := editor.lines.reset
    cursor := Cursor.ofOffset 0 0 }

theorem Holds.cleared (holds : editor.Holds draft) (text : String) :
    (editor.cleared text).Laid [] (Line.bare 0 0 0 (editor.lines.layout.lineOrigin 0))
      Draft.blank where
  text := rfl
  row := rfl
  caret := rfl
  bounded := Nat.zero_le _
  words := holds.words
  table := rfl
  upper_outline := rfl
  line_outline := rfl

/-- A document that fits is streamed as a whole. -/
theorem Holds.streamDocument (holds : editor.Holds draft) {text : String}
    (fits : joinedLength (segments text.toList) ≤ editor.buffer.capacity) :
    ∃ filled stale line,
      (editor.cleared text).streamSegments (segments text.toList) = .ok (filled, .ok ()) ∧
        filled.Laid ([] ++ stale) line (Draft.blank.pasted (segments text.toList)) ∧
        filled.surroundings = (editor.cleared text).surroundings := by
  have empty : Draft.blank.text.length = 0 := rfl
  apply (holds.cleared text).streamSegments
  rw [empty, Nat.zero_add]
  exact fits

/-- A document that fits is loaded, with its segments as lines. -/
theorem Shows.loadDocument (shows : editor.Shows draft) {text : String}
    (fits : joinedLength (segments text.toList) ≤ editor.buffer.capacity) :
    ∃ next, editor.loadDocument text = .ok (next, .ok ()) ∧
      Settled { editor with ending := LineEnding.detect text.toList } next none
        (Draft.blank.pasted (segments text.toList)) := by
  have clean : ∀ piece ∈ segments text.toList, Unbroken piece := fun _ => segments_unbroken
  obtain ⟨filled, stale, line, streams, laid, around⟩ := shows.streamDocument fits
  obtain ⟨bottom, relexes, represents⟩ := laid.toHolds.relexAll laid.outlines
  have same : (filled.relexRange 0 bottom).surroundings =
      { ({ editor with ending := LineEnding.detect text.toList } : Editor κ).surroundings with
        desiredColumn := none } := by
    rw [surroundings_relexRange, around]
    rfl
  obtain ⟨last, finishes, settled⟩ :=
    represents.finish { editor with ending := LineEnding.detect text.toList }
      (Draft.UnbrokenLines.pasted Draft.unbrokenLines_blank clean) same
  refine ⟨last, ?_, settled⟩
  unfold Editor.loadDocument
  rw [if_neg (Nat.not_lt.mpr fits)]
  change ((editor.cleared text).streamSegments (segments text.toList) >>= _) = _
  rw [streams]
  change (filled.relexAll >>= fun next => next.finish >>= _) = _
  rw [relexes]
  change ((filled.relexRange 0 bottom).finish >>= _) = _
  rw [finishes]
  rfl

/-- A document that does not fit is refused before anything is touched. -/
theorem loadDocument_of_full {text : String}
    (full : editor.buffer.capacity < joinedLength (segments text.toList)) :
    editor.loadDocument text =
      .ok (editor, .error (.capacityExceeded (joinedLength (segments text.toList))
        editor.buffer.capacity)) :=
  if_pos full

theorem Shows.setKeywords (shows : editor.Shows draft) (words : List String) :
    ∃ next, editor.setKeywords words = .ok next ∧ next.Shows draft ∧
      next.surroundings = ({ editor with
        lexer := editor.lexer.setKeywords words } : Editor κ).surroundings := by
  let recoloured := { editor with lexer := editor.lexer.setKeywords words }
  have holds : recoloured.Holds draft := shows.toHolds.of_same rfl rfl rfl
  have outlines : recoloured.lines.lines.map Line.outline =
      ruled (slot recoloured.lines.layout) false 0 0 draft.lines := by
    change editor.lines.lines.map Line.outline = _
    rw [shows.table]
    exact map_outline_ruled editor.look false 0 0 draft.lines
  obtain ⟨bottom, relexes, represents⟩ := holds.relexAll outlines
  obtain ⟨word, ranges⟩ := recoloured.relexRange_eq 0 bottom
  refine ⟨recoloured.relexRange 0 bottom, relexes, ?_, surroundings_relexRange recoloured 0 bottom⟩
  rw [ranges] at represents ⊢
  exact {
    toRepresents := represents
    unbroken := shows.unbroken
    indentLevel := shows.indentLevel }

/-- Moving the page moves no text. -/
theorem Shows.setOrigin (shows : editor.Shows draft) (x y : κ) :
    (editor.setOrigin x y).Shows draft where
  toHolds := shows.toHolds.of_same rfl rfl rfl
  table := by
    change LineTable.stamped _ 0 (editor.lines.lines.drop 0) = _
    rw [List.drop_zero, shows.table, stamped_ruled]
    rfl
  unbroken := shows.unbroken
  indentLevel := shows.indentLevel

end Operations

end Editor

end EditorCore
