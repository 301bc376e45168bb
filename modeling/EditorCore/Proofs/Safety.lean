import EditorCore.CaretSnapshot
import EditorCore.Proofs.Transition

/-!
Contract: no call ever breaks a promise.

Owns:
- `Editor.InBounds`, that spans, caret and the stretches that are read around it lie
  where they have to;
- `Line.MovesBy`, a shift that does not stop at an end of the words, and that all
  shifts are such;
- that every call goes through as long as a word holds the length that it asks for.

Does not own: what calls do.
-/

namespace EditorCore

variable {κ : Type}

/-! ## Exact shifts -/

/-- A shift that stays inside the words is not cut off. -/
theorem Word.shift_eq_add {count : Nat} {distance : Int} (low : 0 ≤ count + distance)
    (high : count + distance ≤ Word.largest) :
    (Word.shift count distance : Int) = count + distance := by
  unfold Word.shift
  omega

/-- Shifting a line adds the distance to its offsets, with nothing cut off. -/
structure Line.MovesBy (distance : Int) (line : Line κ) : Prop where
  start : ((line.shift distance).start : Int) = line.start + distance
  stop : ((line.shift distance).stop : Int) = line.stop + distance
  indentEnd : ((line.shift distance).indentEnd : Int) = line.indentEnd + distance

/-- The offsets of a line are in order and lie between two others. -/
structure Line.Within (low high : Nat) (line : Line κ) : Prop where
  low_le : low ≤ line.start
  indented : line.start ≤ line.indentEnd
  ended : line.indentEnd ≤ line.stop
  le_high : line.stop ≤ high

/-- A line that lies inside the text moves exactly. -/
theorem Line.Within.movesBy {low high : Nat} {line : Line κ} {distance : Int}
    (within : line.Within low high) (above : 0 ≤ low + distance)
    (below : high + distance ≤ Word.largest) : line.MovesBy distance := by
  obtain ⟨first, second, third, fourth⟩ := within
  exact {
    start := Word.shift_eq_add (by omega) (by omega)
    stop := Word.shift_eq_add (by omega) (by omega)
    indentEnd := Word.shift_eq_add (by omega) (by omega) }

theorem Look.within_rule [Coordinate κ] (look : Look κ) (index start : Nat) (text : List Char)
    (followed : Bool) :
    (look.rule index start text followed).Within start (start + text.length) where
  low_le := Nat.le_refl _
  indented := Nat.le_add_right _ _
  ended := Nat.add_le_add_left (leadingBlanks_le_length text) _
  le_high := Nat.le_refl _

/-- All lines of a ruled table lie inside the text that they rule. -/
theorem within_of_mem_ruled [Coordinate κ] (look : Look κ) {closed : Bool} {index start : Nat}
    {texts : List (List Char)} {line : Line κ}
    (member : line ∈ ruled look.rule closed index start texts) :
    line.Within start (start + (flow closed texts).length) := by
  induction texts generalizing index start with
  | nil => exact absurd member List.not_mem_nil
  | cons text later inductionHypothesis =>
      have step := length_flow_cons closed text later
      rcases List.mem_cons.mp member with rfl | inLater
      · have here := look.within_rule index start text (closed || !later.isEmpty)
        exact { here with le_high := Nat.le_trans here.le_high (by omega) }
      · have some : later ≠ [] := by
          rintro rfl
          exact absurd inLater List.not_mem_nil
        obtain ⟨low, indented, ended, high⟩ := inductionHypothesis inLater
        rw [if_neg some] at step
        exact ⟨by omega, indented, ended, by omega⟩

namespace Editor

variable [Coordinate κ] {editor : Editor κ} {draft : Draft}

/-- Shifting the lines below the caret's cuts nothing off. -/
def BelowMovesBy (editor : Editor κ) (distance : Int) : Prop :=
  ∀ index line, editor.lines.get? index = some line → editor.cursor.line < index →
    line.MovesBy distance

/-- Everything below the line of the caret moves exactly. -/
theorem Laid.belowMovesBy {upper : List (Line κ)} {line : Line κ} {distance : Int}
    (laid : editor.Laid upper line draft) (low : 0 ≤ draft.stop + separatorLength + distance)
    (high : draft.text.length + distance ≤ Word.largest) : editor.BelowMovesBy distance := by
  intro index other found behind
  obtain ⟨place, rfl⟩ := Nat.exists_eq_add_of_lt behind
  have inBelow : other ∈ ruled editor.look.rule false (draft.row + 1)
      (draft.stop + separatorLength) draft.below := by
    rw [LineTable.get?, laid.table, laid.row_eq, List.getElem?_append_right (by omega)] at found
    have index : upper.length + place + 1 - upper.length = place + 1 := by omega
    rw [index, List.getElem?_cons_succ] at found
    exact List.mem_of_getElem? found
  have more : draft.below ≠ [] := by
    intro none
    rw [none] at inBelow
    exact absurd inBelow List.not_mem_nil
  -- They start past the caret's line and its separator and end with the text.
  have whole := draft.length_text_eq_below more
  exact (within_of_mem_ruled editor.look inBelow).movesBy (by omega) (by omega)

/-! ## Between two changes -/

/-- The editors that a call passes through while it changes text and lines. -/
inductive Midway (editor : Editor κ) : Editor κ → Prop
  | start (afterTypedCr : Bool) : Midway editor { editor with afterTypedCr }
  | cleared (text : String) : Midway editor (editor.cleared text)
  | ran {between next : Editor κ} {run : List Char} (midway : Midway editor between)
      (runs : between.insertRun run = .ok (.ok next)) : Midway editor next
  | split {between next : Editor κ} (midway : Midway editor between)
      (splits : between.splitLine = .ok (.ok next)) : Midway editor next

/-- What has been inserted had room. -/
theorem Holds.fits_of_insertRun (holds : editor.Holds draft) {run : List Char} {next : Editor κ}
    (runs : editor.insertRun run = .ok (.ok next)) :
    draft.text.length + run.length ≤ editor.buffer.capacity := by
  apply Nat.le_of_not_lt
  intro full
  rw [holds.insertRun_of_full full] at runs
  exact ifWord_error_ne runs

theorem Holds.splitLine_of_full (holds : editor.Holds draft)
    (full : editor.buffer.capacity < draft.text.length + separatorLength) :
    editor.splitLine =
      ifWord (draft.text.length + separatorLength)
        (.error (.capacityExceeded (draft.text.length + separatorLength)
          editor.buffer.capacity)) := by
  have bounded := holds.bounded
  rw [← holds.length] at bounded ⊢
  rw [← holds.length, ← length_separator] at full
  rw [Editor.splitLine, Buffer.insert_of_full bounded full, length_separator, ifWord]
  split <;> rfl

/-- A break that has been made had room. -/
theorem Holds.fits_of_splitLine (holds : editor.Holds draft) {next : Editor κ}
    (splits : editor.splitLine = .ok (.ok next)) :
    draft.text.length + separatorLength ≤ editor.buffer.capacity := by
  apply Nat.le_of_not_lt
  intro full
  rw [holds.splitLine_of_full full] at splits
  exact ifWord_error_ne splits

/-- Whatever a call has put so far, the spans are right. -/
theorem Shows.laid_of_midway {between : Editor κ} (shows : editor.Shows draft)
    (midway : editor.Midway between) :
    ∃ upper line target, between.Laid upper line target := by
  induction midway with
  | start afterTypedCr => exact ⟨_, _, _, (shows.withTypedCr afterTypedCr).laid⟩
  | cleared text => exact ⟨_, _, _, shows.toHolds.cleared text⟩
  | ran midway runs inductionHypothesis =>
      obtain ⟨upper, line, target, laid⟩ := inductionHypothesis
      -- A run that has been put has passed the check of the room.
      obtain ⟨next, grown, same, nextLaid, -⟩ :=
        laid.insertRun _ (laid.fits_of_insertRun runs)
      rw [runs] at same
      injection same with same
      injection same with same
      subst same
      exact ⟨upper, grown, _, nextLaid⟩
  | split midway splits inductionHypothesis =>
      obtain ⟨upper, line, target, laid⟩ := inductionHypothesis
      obtain ⟨next, cut, opened, same, nextLaid, -⟩ :=
        laid.splitLine (laid.fits_of_splitLine splits)
      rw [splits] at same
      injection same with same
      injection same with same
      subst same
      exact ⟨_, opened, _, nextLaid⟩

/-- No change of the text cuts off an offset of the lines that it shifts. -/
structure ShiftsExactly (editor : Editor κ) : Prop where
  insertRun : ∀ run next, editor.insertRun run = .ok (.ok next) →
    editor.BelowMovesBy run.length
  splitLine : ∀ next, editor.splitLine = .ok (.ok next) → editor.BelowMovesBy separatorLength
  removeBeforeCaret : ∀ count next, editor.removeBeforeCaret count = .ok next →
    editor.BelowMovesBy (-(count : Int))
  mergeLine : ∀ next, editor.mergeLine = .ok next → editor.BelowMovesBy (-(separatorLength : Int))

theorem Laid.reach_of_removeBeforeCaret {upper : List (Line κ)} {line : Line κ}
    (laid : editor.Laid upper line draft) {count : Nat} {next : Editor κ}
    (removes : editor.removeBeforeCaret count = .ok next) : draft.start + count ≤ draft.offset := by
  apply Nat.le_of_not_lt
  intro short
  have refuses : editor.removeBeforeCaret count = .error .outsideLine := by
    rw [← laid.caret, ← laid.line_start] at short
    rw [Editor.removeBeforeCaret, laid.currentLine_eq]
    simp only [bind, Except.bind, short, if_true]
    rfl
  rw [refuses] at removes
  exact absurd removes nofun

/-- Every change at the caret shifts the lines below exactly. -/
theorem Laid.shiftsExactly {upper : List (Line κ)} {line : Line κ}
    (laid : editor.Laid upper line draft) : editor.ShiftsExactly := by
  have words := laid.words
  have bounded := laid.bounded
  have onLine := draft.offset_le_stop
  constructor
  · intro run next runs
    have fits := laid.fits_of_insertRun runs
    exact laid.belowMovesBy (by omega) (by omega)
  · intro next splits
    have fits := laid.fits_of_splitLine splits
    exact laid.belowMovesBy (by omega) (by omega)
  · intro count next removes
    have reach := laid.reach_of_removeBeforeCaret removes
    exact laid.belowMovesBy (by omega) (by omega)
  · intro next merges
    exact laid.belowMovesBy (by omega) (by omega)

/-! ## Reading around the caret -/

/-- The lines lie in the text, and the stretches around the caret that motions by
word look through are there in full. -/
structure InBounds (editor : Editor κ) : Prop where
  spans : ∀ index line, editor.lines.get? index = some line →
    line.Within 0 editor.buffer.length
  rightward : ∀ line, editor.currentLine = .ok line → editor.cursor.caret < line.stop →
    (editor.buffer.slice editor.cursor.caret line.stop).length = line.stop - editor.cursor.caret
  leftward : ∀ line, editor.currentLine = .ok line → line.start < editor.cursor.caret →
    (editor.buffer.slice line.start editor.cursor.caret).length = editor.cursor.caret - line.start
  snapshot : ∃ snapshot, CaretSnapshot.ofEditor editor = .ok snapshot

theorem Represents.inBounds (represents : editor.Represents draft) : editor.InBounds where
  spans := by
    intro index line found
    rw [LineTable.get?, represents.table] at found
    have within := within_of_mem_ruled editor.look (List.mem_of_getElem? found)
    rwa [Nat.zero_add, ← Draft.text, ← represents.length] at within
  rightward := by
    intro line here inLine
    rw [represents.currentLine_eq] at here
    obtain rfl := Except.ok.inj here
    change (editor.buffer.slice editor.cursor.caret draft.stop).length = draft.stop - _
    rw [represents.caret, represents.slice_after, Draft.stop, Draft.offset, draft.length_current]
    omega
  leftward := by
    intro line here inLine
    rw [represents.currentLine_eq] at here
    obtain rfl := Except.ok.inj here
    change (editor.buffer.slice draft.start editor.cursor.caret).length = _ - draft.start
    rw [represents.caret, represents.slice_before, Draft.offset, Nat.add_sub_cancel_left]
    rfl
  snapshot := by
    rw [CaretSnapshot.ofEditor, represents.currentColumn_eq]
    exact ⟨_, rfl⟩

/-! ## Calls -/

/-- A call goes through if words hold the length that it asks for. -/
theorem Shows.exists_of_step (shows : editor.Shows draft) {call : Call κ}
    (room : editor.lengthFor (call.request editor.afterTypedCr) ≤ Word.largest) :
    ∃ next answer, editor.step call = .ok (next, answer) := by
  have transits := (shows.heard call).perform (call.request editor.afterTypedCr)
  rw [← step_eq_perform] at transits
  cases steps : editor.step call with
  | error fault =>
      rw [steps] at transits
      exact absurd room (Nat.not_le.mpr transits.2)
  | ok pair => exact ⟨pair.1, pair.2, rfl⟩

/-- On every editor that calls lead to, every call goes through if words hold the
length that it asks the document to have, and otherwise it can only say that they
do not.  All that is read lies in the text, no shift is cut off, and every height
falls on a line. -/
theorem every_call_completes (reachable : editor.Reachable) :
    (∀ call : Call κ, editor.lengthFor (call.request editor.afterTypedCr) ≤ Word.largest →
      ∃ next answer, editor.step call = .ok (next, answer)) ∧
    (∀ (call : Call κ) (fault : Fault), editor.step call = .error fault →
      fault = .countTooLarge) ∧
    editor.InBounds ∧ (∀ text, segments text ≠ []) ∧
    (∀ between, editor.Midway between → between.ShiftsExactly) ∧
    ∀ (layout : Layout κ) (y : κ), layout.lineAtY editor.lines.size y < editor.lines.size := by
  obtain ⟨draft, shows⟩ := reachable.shows
  have lines : 0 < editor.lines.size := by
    rw [shows.size]
    exact Nat.zero_lt_of_lt draft.row_lt_length_lines
  refine ⟨fun call => shows.exists_of_step, ?_, shows.inBounds, segments_ne_nil, ?_, lineAtY_lt lines⟩
  · intro call fault stops
    have sound := shows.step call
    rw [stops] at sound
    exact sound.1
  · intro between midway
    obtain ⟨upper, line, target, laid⟩ := shows.laid_of_midway midway
    exact laid.shiftsExactly

/-- A pointer that is nowhere, and Enter in the middle of three indented lines. -/
theorem every_call_completes_standard :
    ∃ (editor : Editor Float32) (answers : List Answer),
      standard.run [.loadDocument "  a\n\tb\n    c", .moveToPosition { line := 1, column := 1 }] =
        .ok (editor, answers) ∧
      editor.lines.size = 3 ∧ editor.cursor.indentLevel = 1 ∧
      (∃ next answer, editor.step (.moveToPoint (0 / 0) (1 / 0)) = .ok (next, answer)) ∧
      (∃ next answer, editor.step .insertLine = .ok (next, answer)) ∧
      editor.InBounds := by
  obtain ⟨editor, answers, runs, reachable, size, level, pointed, entered⟩ :=
    reachable_standard.of_run_to
      [.loadDocument "  a\n\tb\n    c", .moveToPosition { line := 1, column := 1 }]
      (fun editor => editor.lines.size = 3 ∧ editor.cursor.indentLevel = 1 ∧
        editor.lengthFor ((Call.moveToPoint (0 / 0) (1 / 0)).request editor.afterTypedCr) ≤
          Word.largest ∧
        editor.lengthFor (Call.insertLine.request editor.afterTypedCr) ≤ Word.largest)
      (by decide +kernel)
  have completes := every_call_completes reachable
  exact ⟨editor, answers, runs, size, level, completes.1 _ pointed, completes.1 _ entered,
    completes.2.2.1⟩

end Editor

end EditorCore
