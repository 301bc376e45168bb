import EditorCore.Editor.Upkeep

/-!
Contract: what relexing leaves, whatever was there before.

Owns:
- `tokensOfLine`, the tokens of a text as a function of the text and the keywords;
- the stream that a lexer fills is this one, for every stream handed in and every
  scratch word, and only the scratch word of the lexer changes;
- `Editor.rebuilt`, a line made anew from its characters, and `relexLine` and
  `relexRange` as rebuilding in place.

Does not own: which stretches of a text are tokens.
-/

namespace EditorCore

variable {κ : Type}

/-! ## Tokens as a function of the text -/

namespace Lexeme

/-- A word is a keyword exactly when the set holds it. -/
def wordKind (keywords : KeywordSet) (word : List Char) : TokenKind :=
  if keywords.contains (String.ofList word) then .keyword else .identifier

/-- The class of a lexeme by its first character and the keywords. -/
def kindOf (keywords : KeywordSet) (char : Char) (more : List Char) : TokenKind :=
  if isBreak char then .newline
  else if isSpace char then .whitespace
  else if char.isDigit then .number
  else if isWordStart char then wordKind keywords (char :: more)
  else .symbol

end Lexeme

variable [Coordinate κ]

/-- The tokens of a text that starts at an offset. -/
def tokensFrom (keywords : KeywordSet) (metrics : GlyphMetrics κ) (size : κ) (start : Nat) :
    List Char → List (Token κ)
  | [] => []
  | char :: rest =>
      let more := rest.take (Lexeme.extent char rest)
      let kind := Lexeme.kindOf keywords char more
      let stop := start + (char :: more).length
      let width := if kind = .newline then 0 else metrics.runWidth (char :: more) size
      { kind, start, stop, width } ::
        tokensFrom keywords metrics size stop (rest.drop (Lexeme.extent char rest))
termination_by text => text.length
decreasing_by
  simp only [List.length_drop, List.length_cons]
  omega

/-- The tokens of a line, and the separator's when one follows. -/
def tokensOfLine (keywords : KeywordSet) (metrics : GlyphMetrics κ) (size : κ)
    (text : List Char) (hasSeparator : Bool) : List (Token κ) :=
  tokensFrom keywords metrics size 0 text ++
    if hasSeparator then [separatorToken text.length] else []

/-! ## The lexer's state -/

namespace Lexer

/-- The scratch word is emptied before it is filled, so a lookup depends on the
set alone. -/
theorem lookUp_eq (lexer : Lexer) (chars : List Char) :
    lexer.lookUp chars =
      ({ lexer with word := String.ofList chars }, Lexeme.wordKind lexer.keywords chars) := by
  have filled : "" ++ String.ofList chars = String.ofList chars := String.empty_append
  simp only [lookUp, filled]
  rfl

theorem classify_eq (lexer : Lexer) (char : Char) (more : List Char) :
    ∃ word, lexer.classify char more =
      ({ lexer with word }, Lexeme.kindOf lexer.keywords char more) := by
  unfold classify Lexeme.kindOf
  split
  · exact ⟨lexer.word, rfl⟩
  split
  · exact ⟨lexer.word, rfl⟩
  split
  · exact ⟨lexer.word, rfl⟩
  split
  · exact ⟨_, lexer.lookUp_eq (char :: more)⟩
  · exact ⟨lexer.word, rfl⟩

/-- Scanning pushes the tokens of the text behind those that the stream has, and
keeps the keywords. -/
theorem scan_eq (metrics : GlyphMetrics κ) (size : κ) (lexer : Lexer) (stream : TokenStream κ)
    (start : Nat) (text : List Char) :
    ∃ word, lexer.scan metrics size stream start text =
      ({ lexer with word },
        stream ++ tokensFrom lexer.keywords metrics size start text) := by
  fun_induction scan metrics size lexer stream start text with
  | case1 lexer stream start => exact ⟨lexer.word, by rw [tokensFrom, List.append_nil]⟩
  | case2 lexer stream start char rest more next kind classifies stop width inductionHypothesis =>
      obtain ⟨word, scans⟩ := inductionHypothesis
      obtain ⟨looked, classified⟩ := lexer.classify_eq char more
      obtain ⟨rfl, rfl⟩ := Prod.mk.inj (classified.symm.trans classifies)
      refine ⟨word, scans.trans ?_⟩
      rw [tokensFrom, TokenStream.push, List.append_assoc]
      rfl

/-- What a lexer fills a stream with depends on its keywords and the line, and
neither on what the stream held nor on the scratch word.  Only the scratch word
changes. -/
theorem relex_eq (lexer : Lexer) (stream : TokenStream κ) (text : List Char)
    (hasSeparator : Bool) (metrics : GlyphMetrics κ) (size : κ) :
    ∃ word, lexer.relex stream text hasSeparator metrics size =
      ({ lexer with word }, tokensOfLine lexer.keywords metrics size text hasSeparator) := by
  obtain ⟨word, scans⟩ := scan_eq metrics size lexer stream.clear 0 text
  refine ⟨word, ?_⟩
  rw [relex, scans, TokenStream.clear, List.nil_append, tokensOfLine]
  cases hasSeparator with
  | false => simp
  | true => rfl

end Lexer

/-! ## Relexing in an editor -/

namespace Editor

/-- A line with the indentation and the tokens that its characters have. -/
def rebuilt (editor : Editor κ) (hasSeparator : Bool) (line : Line κ) : Line κ :=
  let chars := editor.charsOf line
  { line with
    indentEnd := line.start + leadingBlanks chars
    tokens :=
      if editor.options.syntaxHighlight then
        tokensOfLine editor.lexer.keywords editor.metrics editor.options.textSize chars hasSeparator
      else [] }

theorem relexed_eq (editor : Editor κ) (hasSeparator : Bool) (line : Line κ) :
    ∃ word, editor.relexed hasSeparator line =
      ({ editor.lexer with word }, editor.rebuilt hasSeparator line) := by
  unfold relexed rebuilt
  split
  · obtain ⟨word, relexes⟩ := editor.lexer.relex_eq line.tokens (editor.charsOf line) hasSeparator
      editor.metrics editor.options.textSize
    exact ⟨word, by simp only [relexes]⟩
  · exact ⟨editor.lexer.word, rfl⟩

/-- An editor whose lines are rebuilt from an index on, so many of them. -/
def rebuiltRange (editor : Editor κ) (first count : Nat) (word : String) : Editor κ :=
  { editor with
    lexer := { editor.lexer with word }
    lines := { editor.lines with
      lines := editor.lines.lines.mapIdx fun index line =>
        if first ≤ index ∧ index < first + count then
          editor.rebuilt (index + 1 < editor.lines.size) line
        else line } }

theorem relexLine_eq (editor : Editor κ) (index : Nat) :
    ∃ word, editor.relexLine index = { editor with
      lexer := { editor.lexer with word }
      lines := editor.lines.update index (editor.rebuilt (index + 1 < editor.lines.size)) } := by
  unfold relexLine
  split
  · rename_i outside
    have same : editor.lines.update index
        (editor.rebuilt (index + 1 < editor.lines.size)) = editor.lines := by
      rw [LineTable.update, List.modify_eq_self (List.getElem?_eq_none_iff.mp outside)]
    exact ⟨editor.lexer.word, by rw [same]⟩
  · rename_i line found
    obtain ⟨word, relexes⟩ := editor.relexed_eq (index + 1 < editor.lines.size) line
    refine ⟨word, ?_⟩
    rw [relexes]
    simp only [LineTable.update]
    congr 2
    apply List.ext_getElem?
    intro place
    rw [List.getElem?_modify, List.getElem?_modify]
    split
    · rename_i here
      subst here
      rw [LineTable.get?] at found
      rw [found]
      rfl
    · rfl

/-- A change of a stretch of items, made longer by the item behind it. -/
theorem modify_mapIdx_stretch {α : Type} (change : Nat → α → α) (first count : Nat)
    (items : List α) :
    (items.mapIdx fun index item =>
        if first ≤ index ∧ index < first + count then change index item else item).modify
          (first + count) (change (first + count)) =
      items.mapIdx fun index item =>
        if first ≤ index ∧ index < first + (count + 1) then change index item else item := by
  apply List.ext_getElem?
  intro index
  rw [List.getElem?_modify, List.getElem?_mapIdx, List.getElem?_mapIdx]
  cases items[index]? with
  | none => rfl
  | some item =>
      rcases Nat.lt_trichotomy index (first + count) with before | rfl | behind
      · have later : first + count ≠ index := by omega
        have within : index < first + (count + 1) := by omega
        simp [later, before, within]
      · simp [← Nat.add_assoc]
      · have later : first + count ≠ index := by omega
        have past : ¬ index < first + count := by omega
        have outside : ¬ index < first + (count + 1) := by omega
        simp [later, past, outside]

/-- Relexing lines one after the other rebuilds each of them: relexing one line
touches nothing that another is made from. -/
theorem relexRange_eq (editor : Editor κ) (first last : Nat) :
    ∃ word, editor.relexRange first last = editor.rebuiltRange first (last + 1 - first) word := by
  unfold relexRange
  induction last + 1 - first with
  | zero =>
      have none (index : Nat) : ¬ (first ≤ index ∧ index < first + 0) := by omega
      have same : (editor.lines.lines.mapIdx fun _ line => line) = editor.lines.lines :=
        List.mapIdx_eq_iff.mpr fun index => by simp
      refine ⟨editor.lexer.word, ?_⟩
      simp only [rebuiltRange, none, if_false, same]
      rfl
  | succ count inductionHypothesis =>
      obtain ⟨word, ranges⟩ := inductionHypothesis
      obtain ⟨last, relexes⟩ :=
        (editor.rebuiltRange first count word).relexLine_eq (first + count)
      refine ⟨last, ?_⟩
      rw [List.range'_1_concat, List.foldl_append, ranges]
      refine relexes.trans ?_
      unfold rebuiltRange
      simp only [LineTable.update, LineTable.size, List.length_mapIdx]
      congr 2
      exact modify_mapIdx_stretch
        (fun index line => editor.rebuilt (index + 1 < editor.lines.lines.length) line) first count
        editor.lines.lines

end Editor

end EditorCore
