import EditorCore.Proofs.Reachable

/-!
Contract: the text, the lines and the caret of an editor agree after any calls.

Owns:
- `Editor.Consistent`, the agreement of spans, separators, caret and capacity,
  read off the buffer and the table themselves;
- that it holds after every run, and when a run goes through.

Does not own: tokens, indentation and what else is derived from a line.
-/

namespace EditorCore

namespace Editor

variable {κ : Type}

/-- The lines tile the text at its separators, the caret is on its line, and the
text fits. -/
structure Consistent (editor : Editor κ) : Prop where
  some_line : 0 < editor.lines.size
  first_start : ∀ line, editor.lines.get? 0 = some line → line.start = 0
  adjacent : ∀ index line next, editor.lines.get? index = some line →
    editor.lines.get? (index + 1) = some next → line.stop + 2 = next.start
  last_stop : ∀ index line, editor.lines.get? index = some line →
    index + 1 = editor.lines.size → line.stop = editor.buffer.length
  indentation : ∀ index line, editor.lines.get? index = some line →
    line.start ≤ line.indentEnd ∧ line.indentEnd ≤ line.stop
  separators : ∀ index line, editor.lines.get? index = some line →
    index + 1 < editor.lines.size →
      editor.buffer.charAt line.stop = some '\r' ∧
        editor.buffer.charAt (line.stop + 1) = some '\n'
  unbroken : ∀ index line, editor.lines.get? index = some line →
    ∀ offset, line.start ≤ offset → offset < line.stop →
      ∃ char, editor.buffer.charAt offset = some char ∧ char ≠ '\r' ∧ char ≠ '\n'
  caret : ∃ line, editor.lines.get? editor.cursor.line = some line ∧
    line.start ≤ editor.cursor.caret ∧ editor.cursor.caret ≤ line.stop
  bounded : editor.buffer.length ≤ editor.buffer.capacity

variable [Coordinate κ]

theorem Shows.consistent {editor : Editor κ} {draft : Draft} (shows : editor.Shows draft) :
    editor.Consistent where
  some_line := by
    rw [shows.size]
    exact Nat.zero_lt_of_lt draft.row_lt_length_lines
  first_start := by
    intro line found
    obtain ⟨text, -, rfl⟩ := shows.exists_text found
    rfl
  adjacent := by
    intro index line next found follows
    obtain ⟨text, here, rfl⟩ := shows.exists_text found
    obtain ⟨later, -, rfl⟩ := shows.exists_text follows
    exact (Draft.startOf_succ here).symm
  last_stop := by
    intro index line found last
    obtain ⟨text, here, rfl⟩ := shows.exists_text found
    rw [shows.size] at last
    rw [shows.length]
    exact Draft.startOf_last here last
  indentation := by
    intro index line found
    obtain ⟨text, -, rfl⟩ := shows.exists_text found
    have blanks := leadingBlanks_le_length text
    exact ⟨Nat.le_add_right _ _, Nat.add_le_add_left blanks _⟩
  separators := by
    intro index line found more
    obtain ⟨text, here, rfl⟩ := shows.exists_text found
    rw [shows.size] at more
    rw [Buffer.charAt_eq, Buffer.charAt_eq, shows.text]
    have returns := Draft.getElem?_text_separator here more 0 (by decide)
    have feeds := Draft.getElem?_text_separator here more 1 (by decide)
    exact ⟨returns, feeds⟩
  unbroken := by
    intro index line found offset after before
    obtain ⟨text, here, rfl⟩ := shows.exists_text found
    obtain ⟨place, rfl⟩ := Nat.exists_eq_add_of_le after
    have inside : place < text.length := Nat.lt_of_add_lt_add_left before
    refine ⟨text[place], ?_, ?_⟩
    · rw [Buffer.charAt_eq, shows.text, ← List.getElem?_eq_getElem inside]
      exact Draft.getElem?_text_line here inside
    · exact isBreak_eq_false_iff.mp
        (shows.unbroken text (List.mem_of_getElem? here) _ (List.getElem_mem inside))
  caret := by
    refine ⟨_, shows.get?_cursor, ?_, ?_⟩
    · rw [shows.caret]
      exact Nat.le_add_right _ _
    · rw [shows.caret]
      exact draft.offset_le_stop
  bounded := by
    rw [shows.length]
    exact shows.bounded

/-- After any calls from a new editor on, whatever their arguments and whether
they were accepted, everything is consistent.  A run goes through as long as the
lengths that its calls ask for are words, and nothing else ever cuts it short. -/
theorem run_consistent (settings : Settings κ) (metrics : GlyphMetrics κ)
    (calls : List (Call κ)) {initial : Editor κ} (word : settings.capacity ≤ Word.largest)
    (creates : create settings metrics = .ok initial) :
    (initial.Moderate calls → ∃ last answers, initial.run calls = .ok (last, answers)) ∧
      (∀ last answers, initial.run calls = .ok (last, answers) → last.Consistent) ∧
      ∀ fault, initial.run calls = .error fault → fault = .countTooLarge := by
  have reachable : initial.Reachable := .created word creates
  have proceeds := reachable.run calls
  refine ⟨reachable.run_of_moderate, ?_, ?_⟩
  · intro last answers runs
    rw [runs] at proceeds
    obtain ⟨draft, shows⟩ := Reachable.shows proceeds
    exact shows.consistent
  · intro fault stops
    rw [stops] at proceeds
    exact proceeds

/-- A document of two lines with a new line opened at its end. -/
theorem run_consistent_standard :
    (Settings.standard : Settings Float32).capacity ≤ Word.largest ∧
      create Settings.standard (GlyphMetrics.monospace GlyphMetrics.standardCell) = .ok standard ∧
      standard.Moderate [.loadDocument "a\n\tb", .insertLine] ∧
      ∃ last answers,
        standard.run [.loadDocument "a\n\tb", .insertLine] = .ok (last, answers) ∧
          last.Consistent := by
  have word : (Settings.standard : Settings Float32).capacity ≤ Word.largest := by decide
  have creates :
      create Settings.standard (GlyphMetrics.monospace GlyphMetrics.standardCell) = .ok standard :=
    rfl
  have room : (match standard.step (.loadDocument "a\n\tb") with
      | .ok (next, _) => decide (next.roomFor .insertLine ≤ Word.largest)
      | .error _ => true) = true := by decide +kernel
  have moderate : standard.Moderate [.loadDocument "a\n\tb", .insertLine] := by
    refine ⟨by decide, ?_⟩
    intro next answer steps
    rw [steps] at room
    exact ⟨of_decide_eq_true room, fun _ _ _ => trivial⟩
  obtain ⟨proceeds, consistent, -⟩ :=
    run_consistent _ _ [.loadDocument "a\n\tb", .insertLine] word creates
  obtain ⟨last, answers, runs⟩ := proceeds moderate
  exact ⟨word, creates, moderate, last, answers, runs, consistent last answers runs⟩

end Editor

end EditorCore
