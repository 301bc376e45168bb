import EditorCore.Proofs.ExactPage

/-!
Contract: the caret is drawn where the text before it ends.

Owns:
- that every motion leaves a measured caret measured, by a fresh width, by adding or taking
  off what is stepped over, or by the sum that looking up a distance has formed;
- that every request does, and so every call;
- the caret's distance in every editor that calls lead to, on a page of fractions.

Does not own: the changes that edits are made of.
-/

namespace EditorCore

namespace Editor

variable {κ : Type} {metrics : GlyphMetrics κ} {size : κ} {editor : Editor κ} {line : Line κ}
  {draft : Draft}

/-- A caret that has been put elsewhere on its line is right with the width up to there. -/
theorem Gauged.placed (gauged : Gauged metrics size editor line) {caret : Nat} {x : κ}
    (x_eq : x = metrics.runWidth (editor.buffer.slice line.start caret) size) :
    Gauged metrics size (editor.placed editor.cursor.line caret x) line :=
  ⟨gauged.metrics_eq, gauged.size_eq, gauged.here, x_eq⟩

theorem Gauged.advance_eq (gauged : Gauged metrics size editor line) (char : Char) :
    editor.advance char = metrics.advance char size := by
  rw [advance, gauged.metrics_eq, gauged.size_eq]

theorem gives_finished {outcome : Checked (Editor κ)}
    (gauges : Gives (fun next => ∃ line, Gauged metrics size next line) outcome) :
    Gives (Measured metrics size) (outcome >>= Editor.finish) :=
  gauges.bind fun _ gauged => gauged.elim fun _ gauged => gauged.finish

/-- Settling a gauged caret leaves it measured. -/
theorem gives_settled {outcome : Checked (Editor κ)}
    (gauges : Gives (fun next => ∃ line, Gauged metrics size next line) outcome) :
    Gives (Measured metrics size) (outcome >>= Editor.settle) :=
  gauges.bind fun _ gauged => gauged.elim fun _ gauged => gauged.settle

/-! ## Fresh widths -/

section Fresh

theorem gives_toLineEnd (same : editor.metrics = metrics)
    (sized : editor.options.textSize = size) (index : Nat) :
    Gives (fun next => ∃ line, Gauged metrics size next line) (editor.toLineEnd index) :=
  Gives.step fun _ _ => gives_refreshX same sized

variable (measured : Measured metrics size editor)

include measured

theorem Measured.moveLineEnd : Gives (Measured metrics size) editor.moveLineEnd := by
  obtain ⟨line, gauged, -⟩ := measured
  exact gives_settled (gives_toLineEnd gauged.metrics_eq gauged.size_eq _)

theorem Measured.moveDocumentEnd : Gives (Measured metrics size) editor.moveDocumentEnd := by
  obtain ⟨line, gauged, -⟩ := measured
  exact Gives.step fun last _ =>
    gives_settled (gives_toLineEnd gauged.metrics_eq gauged.size_eq last)

/-- Back from the start of a line. -/
theorem Measured.backward :
    Gives (Measured metrics size)
      (if 0 < editor.cursor.line then
        editor.toLineEnd (editor.cursor.line - 1) >>= Editor.settle
      else editor.settle) := by
  obtain ⟨line, gauged, -⟩ := measured
  split
  · exact gives_settled (gives_toLineEnd gauged.metrics_eq gauged.size_eq _)
  · exact gauged.settle

theorem Measured.moveWordLeft : Gives (Measured metrics size) editor.moveWordLeft := by
  obtain ⟨line, gauged, -⟩ := id measured
  refine Gives.step fun other here => ?_
  change Gives _ (if editor.cursor.caret ≤ other.start then _ else _)
  split
  · exact measured.backward
  · exact Gives.step fun caret _ =>
      gives_settled (gives_refreshX gauged.metrics_eq gauged.size_eq)

/-- A vertical motion measures the line that it goes to. -/
theorem Measured.moveVertical (target : Nat) :
    Gives (Measured metrics size) (editor.moveVertical target) := by
  obtain ⟨line, gauged, -⟩ := measured
  refine Gives.step fun column _ => Gives.step fun other _ => Gives.step fun length _ => ?_
  exact gives_finished (gives_refreshX gauged.metrics_eq gauged.size_eq)

theorem Measured.moveUp : Gives (Measured metrics size) editor.moveUp := by
  unfold Editor.moveUp
  split
  · exact measured.moveVertical _
  · exact .ok measured

theorem Measured.moveDown : Gives (Measured metrics size) editor.moveDown := by
  unfold Editor.moveDown
  split
  · exact measured.moveVertical _
  · exact .ok measured

theorem Measured.moveToPosition (position : Position) :
    Gives (Measured metrics size) (editor.moveToPosition position) := by
  obtain ⟨line, gauged, -⟩ := measured
  refine Gives.step fun last _ => Gives.step fun other _ => Gives.step fun length _ => ?_
  exact gives_settled (gives_refreshX gauged.metrics_eq gauged.size_eq)

end Fresh

/-! ## Sums and differences -/

section Sums

variable [Coordinate κ] (adds : metrics.AddsUp size)

include adds

theorem gives_toLineStart (same : editor.metrics = metrics)
    (sized : editor.options.textSize = size) (index : Nat) :
    Gives (fun next => ∃ line, Gauged metrics size next line) (editor.toLineStart index) := by
  refine Gives.step fun line here => .ok ⟨line, same, sized, here, ?_⟩
  rw [Buffer.slice_self, adds.nil]

/-- The width at which a column is found is that of the characters before it. -/
theorem columnAt_snd (goal : κ) (prior rest : List Char) :
    (columnAt (metrics.advance · size) goal (metrics.runWidth prior size) rest).2 =
      metrics.runWidth (prior ++ rest.take
        (columnAt (metrics.advance · size) goal (metrics.runWidth prior size) rest).1) size := by
  induction rest generalizing prior with
  | nil => rw [List.take_nil, List.append_nil, columnAt]
  | cons char rest inductionHypothesis =>
      rw [columnAt]
      split
      · rw [List.take_zero, List.append_nil]
      · rw [← adds.singleton, ← adds.append]
        change (columnAt _ goal _ rest).2 = metrics.runWidth (prior ++ char :: rest.take _) size
        rw [inductionHypothesis (prior ++ [char]), List.append_assoc]
        rfl

variable (measured : Measured metrics size editor)

include measured

theorem Measured.moveLineStart : Gives (Measured metrics size) editor.moveLineStart := by
  obtain ⟨line, gauged, -⟩ := measured
  exact gives_settled (gives_toLineStart adds gauged.metrics_eq gauged.size_eq _)

/-- The document starts where its first line does. -/
theorem Measured.moveDocumentStart (shows : editor.Shows draft) :
    Gives (Measured metrics size) editor.moveDocumentStart := by
  obtain ⟨line, gauged, -⟩ := measured
  obtain ⟨text, found⟩ := draft.exists_line 0 (Nat.zero_lt_of_lt draft.row_lt_length_lines)
  refine Gauged.settle ⟨gauged.metrics_eq, gauged.size_eq, shows.get_eq found, ?_⟩
  change 0 = metrics.runWidth (editor.buffer.slice 0 0) size
  rw [Buffer.slice_self, adds.nil]

/-- On from the end of a line. -/
theorem Measured.onward :
    Gives (Measured metrics size)
      (if editor.cursor.line + 1 < editor.lines.size then
        editor.toLineStart (editor.cursor.line + 1) >>= Editor.settle
      else editor.settle) := by
  obtain ⟨line, gauged, -⟩ := measured
  split
  · exact gives_settled (gives_toLineStart adds gauged.metrics_eq gauged.size_eq _)
  · exact gauged.settle

/-- The character that is stepped over is taken off. -/
theorem Measured.moveLeft : Gives (Measured metrics size) editor.moveLeft := by
  obtain ⟨line, gauged, -⟩ := id measured
  refine Gives.step fun other here => ?_
  obtain rfl := Except.ok.inj (gauged.here.symm.trans here)
  change Gives _ (if line.start < editor.cursor.caret then _ else _)
  split
  · refine Gauged.settle (gauged.placed ?_)
    have stepped := editor.buffer.slice_append (by omega : line.start ≤ editor.cursor.caret - 1)
      (Nat.sub_le editor.cursor.caret 1)
    have single := editor.buffer.slice_succ (editor.cursor.caret - 1)
    rw [Nat.sub_add_cancel (by omega)] at single
    rw [single] at stepped
    cases found : editor.buffer.charAt (editor.cursor.caret - 1) with
    | none =>
        rw [found, Option.toList_none, List.append_nil] at stepped
        rw [stepped]
        exact gauged.x_eq
    | some char =>
        rw [found, Option.toList_some] at stepped
        change Coordinate.clampToZero (editor.cursor.x - editor.advance char) = _
        rw [gauged.x_eq, ← stepped, gauged.advance_eq, ← adds.singleton]
        exact adds.takenOff _ _
  · exact measured.backward

/-- The character that is stepped over is added. -/
theorem Measured.moveRight : Gives (Measured metrics size) editor.moveRight := by
  obtain ⟨line, gauged, starts⟩ := id measured
  refine Gives.step fun other here => ?_
  change Gives _ (if editor.cursor.caret < other.stop then _ else _)
  split
  · refine Gauged.settle (gauged.placed ?_)
    have stepped := editor.buffer.slice_append starts (Nat.le_succ editor.cursor.caret)
    rw [editor.buffer.slice_succ] at stepped
    rw [← stepped]
    cases found : editor.buffer.charAt editor.cursor.caret with
    | none =>
        rw [Option.toList_none, List.append_nil]
        exact gauged.x_eq
    | some char =>
        change editor.cursor.x + editor.advance char = _
        rw [Option.toList_some, adds.append, adds.singleton, gauged.x_eq, gauged.advance_eq]
  · exact measured.onward adds

/-- The characters that are stepped over are added. -/
theorem Measured.moveWordRight : Gives (Measured metrics size) editor.moveWordRight := by
  obtain ⟨line, gauged, starts⟩ := id measured
  refine Gives.step fun other here => ?_
  change Gives _ (if other.stop ≤ editor.cursor.caret then _ else _)
  split
  · exact measured.onward adds
  · refine Gauged.settle (gauged.placed ?_)
    rw [← editor.buffer.slice_append starts (Nat.le_add_right _ _), adds.append, ← gauged.x_eq,
      ← gauged.metrics_eq, ← gauged.size_eq]
    rfl

/-- The sum that finds the column is the width up to it. -/
theorem Measured.moveToPoint (x y : κ) :
    Gives (Measured metrics size) (editor.moveToPoint x y) := by
  obtain ⟨old, gauged, -⟩ := measured
  refine Gives.step fun line here => ?_
  refine Gauged.settle ⟨gauged.metrics_eq, gauged.size_eq, here, ?_⟩
  have advances : editor.advance = (metrics.advance · size) := funext gauged.advance_eq
  have reached := columnAt_snd adds (x - editor.lines.layout.originX) [] (editor.charsOf line)
  have inside := columnAt_le_length (metrics.advance · size) (x - editor.lines.layout.originX)
    (metrics.runWidth [] size) (editor.charsOf line)
  rw [adds.nil, ← advances, charsOf] at reached inside
  rw [List.nil_append, Buffer.take_slice _ inside] at reached
  exact reached

/-- Every motion leaves the caret measured. -/
theorem Measured.move (shows : editor.Shows draft) (motion : Motion) :
    Gives (Measured metrics size) (editor.move motion) := by
  cases motion with
  | left => exact measured.moveLeft adds
  | right => exact measured.moveRight adds
  | up => exact measured.moveUp
  | down => exact measured.moveDown
  | lineStart => exact measured.moveLineStart adds
  | lineEnd => exact measured.moveLineEnd
  | wordLeft => exact measured.moveWordLeft
  | wordRight => exact measured.moveWordRight adds
  | documentStart => exact measured.moveDocumentStart adds shows
  | documentEnd => exact measured.moveDocumentEnd

end Sums

/-! ## Requests -/

section Requests

/-- What touches neither text nor caret leaves it measured. -/
theorem Measured.of_same {next : Editor κ} (measured : Measured metrics size editor)
    (same : next.metrics = editor.metrics) (options : next.options = editor.options)
    (buffer : next.buffer = editor.buffer) (lines : next.lines = editor.lines)
    (cursor : next.cursor = editor.cursor) : Measured metrics size next := by
  obtain ⟨line, gauged, starts⟩ := measured
  refine ⟨line, ⟨same.trans gauged.metrics_eq, ?_, ?_, ?_⟩, ?_⟩
  · rw [options, gauged.size_eq]
  · rw [currentLine, lines, cursor]
    exact gauged.here
  · rw [buffer, cursor, gauged.x_eq]
  · rw [cursor]
    exact starts

theorem gives_map_fst {α : Type} {kind : Editor κ → Prop} {outcome : Checked (Editor κ × α)}
    (gives : Gives (fun pair => kind pair.1) outcome) : Gives kind (outcome.map Prod.fst) := by
  cases outcome with
  | error fault => exact .error
  | ok pair => exact .ok (gives pair rfl)

variable [Coordinate κ]

theorem Measured.setOrigin (measured : Measured metrics size editor) (x y : κ) :
    Measured metrics size (editor.setOrigin x y) := by
  obtain ⟨line, gauged, starts⟩ := measured
  have found := LineTable.get_eq_ok_iff.mp gauged.here
  rw [LineTable.get?] at found
  refine ⟨LineTable.stamp (editor.setOrigin x y).lines.layout (0 + editor.cursor.line) line,
    ⟨gauged.metrics_eq, gauged.size_eq, ?_, gauged.x_eq⟩, starts⟩
  rw [currentLine, LineTable.get_eq_ok_iff, LineTable.get?]
  change (LineTable.stamped _ 0 (editor.lines.lines.drop 0))[editor.cursor.line]? = _
  rw [List.drop_zero, LineTable.stamped, List.getElem?_mapIdx, found]
  rfl

theorem Measured.setKeywords (measured : Measured metrics size editor) (words : List String) :
    Gives (Measured metrics size) (editor.setKeywords words) := by
  obtain ⟨line, gauged, starts⟩ := measured
  have coloured :
      Gauged metrics size { editor with lexer := editor.lexer.setKeywords words } line :=
    ⟨gauged.metrics_eq, gauged.size_eq, gauged.here, gauged.x_eq⟩
  intro next colours
  obtain ⟨fresh, gauged, start, caret⟩ := coloured.relexAll next colours
  refine ⟨fresh, gauged, ?_⟩
  rw [start, caret]
  exact starts

variable (adds : metrics.AddsUp size) (measured : Measured metrics size editor)
  (shows : editor.Shows draft)

include adds measured shows

theorem Measured.insertLine :
    Gives (fun pair => Measured metrics size pair.1) editor.insertLine := by
  by_cases multiline : editor.options.multiline = true
  · rw [shows.insertLine_eq multiline]
    exact measured.openLine adds _
  · rw [Editor.insertLine, if_pos (Bool.eq_false_iff.mpr multiline)]
    exact .ok measured

theorem Measured.insertChar (char : Char) :
    Gives (fun pair => Measured metrics size pair.1) (editor.insertChar char) := by
  unfold Editor.insertChar
  split
  · exact measured.insertLine adds shows
  · exact measured.typeRun adds [char]

/-- Every edit leaves the caret measured. -/
theorem Measured.edit (edit : Edit) :
    Gives (Measured metrics size) (editor.perform (.edit edit)) := by
  cases edit with
  | character char =>
      rw [perform_character]
      exact gives_map_fst (measured.insertChar adds shows char)
  | newline =>
      rw [perform_newline]
      exact gives_map_fst (measured.insertLine adds shows)
  | tab =>
      rw [perform_tab]
      exact gives_map_fst (measured.indent adds)
  | backspace =>
      rw [perform_backspace, shows.deleteChar_eq]
      exact gives_map_fst (measured.outdent adds)
  | outdent =>
      rw [perform_outdent]
      exact gives_map_fst (measured.outdent adds)
  | paste text =>
      rw [perform_paste]
      exact gives_map_fst (measured.paste adds text)

/-- The step lemma: every request leaves the caret measured. -/
theorem Measured.perform (request : Request κ) :
    Gives (Measured metrics size) (editor.perform request) := by
  cases request with
  | nothing => exact .ok measured
  | edit edit => exact measured.edit adds shows edit
  | load text => exact gives_map_fst (measured.loadDocument adds text)
  | go motion => exact measured.move adds shows motion
  | place position => exact measured.moveToPosition position
  | point x y => exact measured.moveToPoint adds x y
  | arrange x y => exact .ok (measured.setOrigin x y)
  | colour words => exact measured.setKeywords words
  | frame => exact .ok (measured.of_same rfl rfl rfl rfl rfl)
  | fetch => exact .ok (measured.of_same rfl rfl rfl rfl rfl)

end Requests

/-- Where widths add up, the caret's distance never drifts. -/
theorem Reachable.measured [Coordinate κ] (reachable : editor.Reachable)
    (adds : editor.metrics.AddsUp editor.options.textSize) :
    Measured editor.metrics editor.options.textSize editor := by
  induction reachable with
  | created word creates =>
      rw [create_eq creates] at adds ⊢
      exact ⟨_, ⟨rfl, rfl, rfl, adds.nil.symm⟩, Nat.le_refl _⟩
  | @stepped previous _ call _ reachable steps inductionHypothesis =>
      obtain ⟨draft, shows⟩ := reachable.shows
      obtain ⟨target, leaves⟩ := shows.leaves_of_step steps
      rw [leaves.metrics_eq, leaves.options_eq] at adds ⊢
      have heard : Measured previous.metrics previous.options.textSize (previous.heard call) :=
        (inductionHypothesis adds).of_same rfl rfl rfl rfl rfl
      exact heard.perform adds (shows.heard call) _ _ (step_eq_ok steps)

/-- The caret's distance in terms of the document. -/
theorem Measured.x_eq [Coordinate κ] (measured : Measured metrics size editor)
    (shows : editor.Shows draft) : editor.cursor.x = metrics.runWidth draft.before size := by
  obtain ⟨line, gauged, -⟩ := measured
  obtain rfl := Except.ok.inj (gauged.here.symm.trans shows.currentLine_eq)
  rw [← shows.slice_before, ← shows.caret]
  exact gauged.x_eq

/-! ## On a page of fractions -/

/-- The caret stands on a line, its distance is the sum of the advances of the characters
from the start of the line, and nothing that may be taken off of it leads below zero. -/
structure TrueX (editor : Editor ℚ) (line : Line ℚ) : Prop where
  here : editor.currentLine = .ok line
  onLine : line.start ≤ editor.cursor.caret ∧ editor.cursor.caret ≤ line.stop
  sum : editor.cursor.x =
    ((editor.buffer.slice line.start editor.cursor.caret).map editor.advance).sum
  /-- Stepping back over characters of the line removes no more than there is. -/
  removes : ∀ count, line.start + count ≤ editor.cursor.caret →
    0 ≤ editor.cursor.x - editor.widthOf (editor.cursor.caret - count) editor.cursor.caret
  /-- Nor does going back over one. -/
  stepsBack : ∀ char, line.start < editor.cursor.caret →
    editor.buffer.charAt (editor.cursor.caret - 1) = some char →
      0 ≤ editor.cursor.x - editor.advance char

section Exact

variable {editor : Editor ℚ} {line : Line ℚ} {draft : Draft}

/-- What stands before the removed characters is left. -/
theorem Gauged.sub_widthOf
    (gauged : Gauged editor.metrics editor.options.textSize editor line)
    (adds : editor.metrics.AddsUp editor.options.textSize) {count : ℕ}
    (inside : line.start + count ≤ editor.cursor.caret) :
    editor.cursor.x - editor.widthOf (editor.cursor.caret - count) editor.cursor.caret =
      editor.widthOf line.start (editor.cursor.caret - count) := by
  have split := editor.buffer.slice_append
    (by omega : line.start ≤ editor.cursor.caret - count) (Nat.sub_le _ count)
  have parts := adds.append (editor.buffer.slice line.start (editor.cursor.caret - count))
    (editor.buffer.slice (editor.cursor.caret - count) editor.cursor.caret)
  rw [split, ← gauged.x_eq] at parts
  rw [widthOf, widthOf, sub_eq_iff_eq_add]
  exact parts

/-- Where runs are measured by advances, a stretch is as wide as their sum. -/
theorem widthOf_eq_sum
    (widths : editor.metrics.runWidth = GlyphMetrics.sumOfAdvances editor.metrics.advance)
    (start stop : ℕ) :
    editor.widthOf start stop = ((editor.buffer.slice start stop).map editor.advance).sum := by
  rw [widthOf, widths, GlyphMetrics.sumOfAdvances_eq_sum]
  rfl

/-- Whatever calls have led to an editor and whichever of them have set the distance of its
caret, it is the sum of the advances on the caret's left.  Going back and removing
characters are all that takes widths off, both from where a call has found the caret, so that
they never have anything to clamp. -/
theorem caret_x_never_drifts (reachable : editor.Reachable)
    (widths : editor.metrics.runWidth = GlyphMetrics.sumOfAdvances editor.metrics.advance)
    (nonneg : ∀ char, 0 ≤ editor.advance char) : ∃ line, editor.TrueX line := by
  have adds := GlyphMetrics.addsUp_of_nonneg widths nonneg
  obtain ⟨line, gauged, starts⟩ := reachable.measured adds
  obtain ⟨draft, shows⟩ := reachable.shows
  have removes : ∀ count, line.start + count ≤ editor.cursor.caret →
      0 ≤ editor.cursor.x -
        editor.widthOf (editor.cursor.caret - count) editor.cursor.caret := by
    intro count inside
    rw [gauged.sub_widthOf adds inside, widthOf_eq_sum widths]
    exact sum_advances_nonneg nonneg _
  refine ⟨line, gauged.here, ⟨starts, ?_⟩, ?_, removes, ?_⟩
  · obtain rfl := Except.ok.inj (gauged.here.symm.trans shows.currentLine_eq)
    rw [shows.caret]
    exact draft.offset_le_stop
  · rw [← widthOf_eq_sum widths]
    exact gauged.x_eq
  · intro char after found
    have single := editor.buffer.slice_succ (editor.cursor.caret - 1)
    rw [Nat.sub_add_cancel (by omega), found, Option.toList_some] at single
    have width := widthOf_eq_sum widths (editor.cursor.caret - 1) editor.cursor.caret
    rw [single, List.map_singleton, List.sum_singleton] at width
    rw [← width]
    exact removes 1 after

/-- Typing, removing and moving after a load. -/
theorem caret_x_never_drifts_standard :
    ∃ editor answers,
      standardExact.run [.loadDocument "ab c\n\tde", .deleteChar, .insertChar 'x', .move .wordLeft,
          .move .left, .deleteChar, .moveToPoint 25 12] = .ok (editor, answers) ∧
        ∃ line, editor.TrueX line := by
  obtain ⟨editor, answers, runs, reachable⟩ := reachable_standardExact.of_run
    [.loadDocument "ab c\n\tde", .deleteChar, .insertChar 'x', .move .wordLeft,
      .move .left, .deleteChar, .moveToPoint 25 12] (by decide +kernel)
  exact ⟨editor, answers, runs, caret_x_never_drifts reachable (widths_of_run runs)
    (advance_nonneg_of_run runs)⟩

end Exact

end Editor

end EditorCore
