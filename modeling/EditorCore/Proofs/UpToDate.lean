import EditorCore.Proofs.Reachable

/-!
Contract: what is kept for each line is what its text gives from scratch.

Owns:
- `Editor.UpToDate`, the comparison of every line with a rebuild by the present
  keywords and layout, its tokens relexed by a fresh lexer;
- that it holds of every editor that calls lead to, and that the present keywords
  are the words that were chosen.

Does not own: the spans of lines.
-/

namespace EditorCore

namespace Editor

variable {κ : Type} [Coordinate κ]

/-- Index, place, indentation and tokens of every line, and the indent level of
the caret's line, are those of a rebuild from the text. -/
structure UpToDate (editor : Editor κ) : Prop where
  index : ∀ index line, editor.lines.get? index = some line → line.index = index
  displayOrigin : ∀ index line, editor.lines.get? index = some line →
    line.displayOrigin = editor.lines.layout.lineOrigin index
  indentEnd : ∀ index line, editor.lines.get? index = some line →
    line.indentEnd = line.start + leadingBlanks (editor.charsOf line)
  tokens : ∀ index line, editor.lines.get? index = some line →
    line.tokens =
      if editor.options.syntaxHighlight then
        ((Lexer.ofKeywords editor.lexer.keywords).relex [] (editor.charsOf line)
          (decide (index + 1 < editor.lines.size)) editor.metrics editor.options.textSize).2
      else []
  indentLevel : ∃ line, editor.lines.get? editor.cursor.line = some line ∧
    editor.cursor.indentLevel =
      indentUnits editor.options.tabSize ((editor.charsOf line).takeWhile isBlank)

/-- Reading a line gives the text that it was ruled from. -/
theorem Holds.charsOf_rule {editor : Editor κ} {draft : Draft} (holds : editor.Holds draft)
    {index : Nat} {text : List Char} (found : draft.lines[index]? = some text)
    (followed : Bool) :
    editor.charsOf (editor.look.rule index (draft.startOf index) text followed) = text :=
  holds.slice_line found

theorem Shows.upToDate {editor : Editor κ} {draft : Draft} (shows : editor.Shows draft) :
    editor.UpToDate where
  index := by
    intro index line found
    obtain ⟨text, -, rfl⟩ := shows.exists_text found
    rfl
  displayOrigin := by
    intro index line found
    obtain ⟨text, -, rfl⟩ := shows.exists_text found
    rfl
  indentEnd := by
    intro index line found
    obtain ⟨text, here, rfl⟩ := shows.exists_text found
    rw [shows.charsOf_rule here]
    rfl
  tokens := by
    intro index line found
    obtain ⟨text, here, rfl⟩ := shows.exists_text found
    obtain ⟨word, relexes⟩ := (Lexer.ofKeywords editor.lexer.keywords).relex_eq [] text
      (decide (index + 1 < editor.lines.size)) editor.metrics editor.options.textSize
    rw [shows.charsOf_rule here, relexes, shows.size]
    rfl
  indentLevel := by
    refine ⟨_, shows.get?_cursor, ?_⟩
    have chars : editor.charsOf (editor.look.rule draft.row draft.start draft.current
        (!draft.below.isEmpty)) = draft.current := shows.slice_current
    rw [chars, shows.indentLevel]

/-- Choosing keywords makes them the words of the list, and no others. -/
theorem Shows.isKeyword_iff {editor next : Editor κ} {draft : Draft} (shows : editor.Shows draft)
    {words : List String} (colours : editor.setKeywords words = .ok next) (word : String) :
    next.lexer.isKeyword word = true ↔ word ∈ words := by
  obtain ⟨last, recolours, -, around⟩ := shows.setKeywords words
  obtain rfl := Except.ok.inj (recolours.symm.trans colours)
  have keywords : last.lexer.keywords = KeywordSet.ofList words :=
    congrArg (fun around => around.look.keywords) around
  rw [Lexer.isKeyword, keywords, KeywordSet.contains_ofList]

/-- No call leaves anything stale on any line, touched or not: after every call
each line is as a rebuild would make it, by the keywords that were chosen last. -/
theorem upToDate_of_reachable {editor : Editor κ} (reachable : editor.Reachable) :
    editor.UpToDate ∧
      ∀ words, ∃ recoloured, editor.setKeywords words = .ok recoloured ∧ recoloured.UpToDate ∧
        ∀ word, recoloured.lexer.isKeyword word = true ↔ word ∈ words := by
  obtain ⟨draft, shows⟩ := reachable.shows
  refine ⟨shows.upToDate, fun words => ?_⟩
  obtain ⟨recoloured, colours, showsNow, -⟩ := shows.setKeywords words
  exact ⟨recoloured, colours, showsNow.upToDate, shows.isKeyword_iff colours⟩

/-- New keywords between two edits, and other ones after them. -/
theorem upToDate_standard :
    ∃ editor answers recoloured,
      standard.run [.loadDocument "a\n\tb", .setKeywords ["b"], .insertLine] =
          .ok (editor, answers) ∧
        editor.UpToDate ∧ editor.setKeywords ["a", "c"] = .ok recoloured ∧
          recoloured.UpToDate ∧ recoloured.lexer.isKeyword "c" = true := by
  obtain ⟨editor, answers, runs, reachable⟩ := reachable_standard.of_run
    [.loadDocument "a\n\tb", .setKeywords ["b"], .insertLine] (by decide +kernel)
  obtain ⟨fresh, choice⟩ := upToDate_of_reachable reachable
  obtain ⟨recoloured, colours, freshNow, keywords⟩ := choice ["a", "c"]
  have chosen : recoloured.lexer.isKeyword "c" = true := (keywords "c").mpr (by decide)
  exact ⟨editor, answers, recoloured, runs, fresh, colours, freshNow, chosen⟩

end Editor

end EditorCore
