import EditorCore.Proofs.CharacterClasses
import EditorCore.Proofs.Runs

/-!
Contract: cutting a line takes the longest lexeme each time.

Owns:
- `Munches`, what the stretch of a token of each class is, read off the text alone;
- `MaximalMunch`, tokens that are such stretches and cover a text without gaps, and
  `Tokenizes`, which adds the token of the separator;
- that the tokens of a line are these, and that there are no others.

Does not own: which characters are letters, numerals and white space, or which
lines are cut anew.
-/

namespace EditorCore

/-! ## Tokens -/

/-- The characters from an offset up to another are a token of a class, as long as
can be.  The two characters of a CR LF are one break. -/
inductive Munches (keywords : KeywordSet) (text : List Char) : TokenKind → Nat → Nat → Prop
  | crLf {start : Nat} (returns : text[start]? = some '\r') (feeds : text[start + 1]? = some '\n') :
      Munches keywords text .newline start (start + 2)
  | cr {start : Nat} (returns : text[start]? = some '\r') (alone : text[start + 1]? ≠ some '\n') :
      Munches keywords text .newline start (start + 1)
  | lf {start : Nat} (feeds : text[start]? = some '\n')
      (alone : isBefore (· = '\r') text start = false) :
      Munches keywords text .newline start (start + 1)
  | whitespace {start stop : Nat} (some : start < stop)
      (alone : isBefore isSpace text start = false) (run : LongestRun isSpace text start stop) :
      Munches keywords text .whitespace start stop
  | number {start stop : Nat} (digit : isAt Char.isDigit text start = true)
      (run : LongestRun isNumberPart text (start + 1) stop) :
      Munches keywords text .number start stop
  | keyword {start stop : Nat} (letter : isAt isWordStart text start = true)
      (run : LongestRun isWordPart text (start + 1) stop)
      (known : keywords.contains (String.ofList (stretch text start stop)) = true) :
      Munches keywords text .keyword start stop
  | identifier {start stop : Nat} (letter : isAt isWordStart text start = true)
      (run : LongestRun isWordPart text (start + 1) stop)
      (unknown : keywords.contains (String.ofList (stretch text start stop)) = false) :
      Munches keywords text .identifier start stop
  | symbol {start : Nat} {char : Char} (here : text[start]? = some char)
      (ends : isBreak char = false) (space : isSpace char = false) (digit : char.isDigit = false)
      (letter : isWordStart char = false) : Munches keywords text .symbol start (start + 1)

variable {κ : Type} [Coordinate κ]

/-- Tokens that cover a text from an offset on without gaps, each of them as long as
can be. -/
structure MaximalMunch (keywords : KeywordSet) (metrics : GlyphMetrics κ) (size : κ)
    (text : List Char) (start : Nat) (tokens : List (Token κ)) : Prop where
  nonempty : ∀ token ∈ tokens, token.start < token.stop
  first : ∀ token ∈ tokens.head?, token.start = start
  adjacent : ∀ place token next, tokens[place]? = some token → tokens[place + 1]? = some next →
    token.stop = next.start
  last : (tokens.getLast?.map Token.stop).getD start = text.length
  munches : ∀ token ∈ tokens, Munches keywords text token.kind token.start token.stop
  widths : ∀ token ∈ tokens, token.width =
    if token.kind = .newline then 0
    else metrics.runWidth (stretch text token.start token.stop) size

/-- The tokens of a text from its start, and behind them the separator's if one
follows the text. -/
def Tokenizes (keywords : KeywordSet) (metrics : GlyphMetrics κ) (size : κ) (text : List Char)
    (hasSeparator : Bool) (tokens : List (Token κ)) : Prop :=
  ∃ body, MaximalMunch keywords metrics size text 0 body ∧
    tokens = body ++ if hasSeparator then
      [{ kind := .newline, start := text.length, stop := text.length + 2, width := 0 }] else []

/-! ## One lexeme -/

section Lexemes

variable {keywords : KeywordSet} {text prior rest : List Char} {char : Char} {kind : TokenKind}
  {start stop : Nat}

theorem Munches.start_lt (munches : Munches keywords text kind start stop) :
    start < text.length := by
  cases munches with
  | crLf returns feeds => exact (List.getElem?_eq_some_iff.mp returns).1
  | cr returns alone => exact (List.getElem?_eq_some_iff.mp returns).1
  | lf feeds alone => exact (List.getElem?_eq_some_iff.mp feeds).1
  | whitespace some alone run => exact lt_of_isAt (run.inside start (Nat.le_refl start) some)
  | number digit run => exact lt_of_isAt digit
  | keyword letter run known => exact lt_of_isAt letter
  | identifier letter run unknown => exact lt_of_isAt letter
  | symbol here ends space digit letter => exact (List.getElem?_eq_some_iff.mp here).1

theorem longestRun_isSpace_iff (space : isSpace char = true) :
    LongestRun isSpace (prior ++ char :: rest) prior.length stop ↔
      stop = prior.length + 1 + (rest.takeWhile isSpace).length := by
  rw [longestRun_iff, List.takeWhile_cons_of_pos space, List.length_cons, Nat.add_assoc,
    Nat.add_comm 1]

/-- No run of spaces and no CR LF goes on over the place between two texts. -/
def Apart (prior rest : List Char) : Prop :=
  ∀ last ∈ prior.getLast?, ∀ next ∈ rest.head?,
    (isSpace last = true → isSpace next = false) ∧ (last = '\r' → next ≠ '\n')

theorem apart_nil (rest : List Char) : Apart [] rest :=
  fun _ isLast => absurd isLast (Option.not_mem_none _)

theorem apart_append {more : List Char} (apart : Apart (char :: more) rest) :
    Apart (prior ++ char :: more) rest := by
  intro last isLast
  rw [List.getLast?_append, List.getLast?_cons, Option.some_or, ← List.getLast?_cons] at isLast
  exact apart last isLast

/-- No space stands before a token of spaces. -/
theorem Apart.isBefore_isSpace (apart : Apart prior (char :: rest)) (space : isSpace char = true) :
    isBefore isSpace (prior ++ char :: rest) prior.length = false := by
  rw [isBefore_length]
  cases found : prior.getLast? with
  | none => rfl
  | some last =>
      rw [Option.any_some, Bool.eq_false_iff]
      intro before
      exact absurd space (Bool.eq_false_iff.mp ((apart last found char rfl).1 before))

theorem Apart.isBefore_return (apart : Apart prior ('\n' :: rest)) :
    isBefore (· = '\r') (prior ++ '\n' :: rest) prior.length = false := by
  rw [isBefore_length]
  cases found : prior.getLast? with
  | none => rfl
  | some last =>
      have notReturn : last ≠ '\r' := fun returns => (apart last found '\n' rfl).2 returns rfl
      simpa using notReturn

namespace Lexeme

/-- The class of the first character decides where a token ends. -/
theorem eq_of_munches (munches : Munches keywords (prior ++ char :: rest) kind prior.length stop) :
    kind = kindOf keywords char (rest.take (extent char rest)) ∧
      stop = prior.length + 1 + extent char rest := by
  cases munches with
  | crLf returns feeds =>
      rw [getElem?_append_length, Option.some.injEq] at returns
      rw [getElem?_append_succ] at feeds
      subst returns
      simp [kindOf, extent, isBreak, feeds]
  | cr returns alone =>
      rw [getElem?_append_length, Option.some.injEq] at returns
      rw [getElem?_append_succ] at alone
      subst returns
      simp [kindOf, extent, isBreak, alone]
  | lf feeds alone =>
      rw [getElem?_append_length, Option.some.injEq] at feeds
      subst feeds
      simp [kindOf, extent, isBreak]
  | whitespace some alone run =>
      have space := run.inside prior.length (Nat.le_refl _) some
      rw [isAt_length] at space
      rw [kindOf_of_isSpace space, extent_of_isSpace space]
      exact ⟨rfl, (longestRun_isSpace_iff space).mp run⟩
  | number digit run =>
      rw [isAt_length] at digit
      rw [kindOf_of_isDigit digit, extent_of_isDigit digit]
      exact ⟨rfl, longestRun_succ_iff.mp run⟩
  | keyword letter run known =>
      rw [isAt_length] at letter
      rw [kindOf_of_isWordStart letter, extent_of_isWordStart letter]
      obtain rfl := longestRun_succ_iff.mp run
      rw [stretch_cons] at known
      exact ⟨(if_pos known).symm, rfl⟩
  | identifier letter run unknown =>
      rw [isAt_length] at letter
      rw [kindOf_of_isWordStart letter, extent_of_isWordStart letter]
      obtain rfl := longestRun_succ_iff.mp run
      rw [stretch_cons] at unknown
      exact ⟨(if_neg (Bool.eq_false_iff.mp unknown)).symm, rfl⟩
  | symbol here ends space digit letter =>
      rw [getElem?_append_length, Option.some.injEq] at here
      subst here
      simp [kindOf, extent, ends, space, digit, letter]

/-- What a lexeme takes is a munch: as much of its kind as there is. -/
theorem munches_extent (keywords : KeywordSet) (apart : Apart prior (char :: rest)) :
    Munches keywords (prior ++ char :: rest) (kindOf keywords char (rest.take (extent char rest)))
      prior.length (prior.length + 1 + extent char rest) := by
  by_cases ends : isBreak char = true
  · rw [kindOf, if_pos ends, extent, if_pos ends]
    split
    · rename_i both
      obtain ⟨rfl, feeds⟩ := both
      exact .crLf getElem?_append_length (by rw [getElem?_append_succ, feeds])
    · rename_i single
      rcases Bool.or_eq_true_iff.mp ends with returns | feeds
      · obtain rfl := of_decide_eq_true returns
        refine .cr getElem?_append_length ?_
        rw [getElem?_append_succ]
        exact fun feeds => single ⟨rfl, feeds⟩
      · obtain rfl := of_decide_eq_true feeds
        exact .lf getElem?_append_length apart.isBefore_return
  by_cases space : isSpace char = true
  · rw [kindOf_of_isSpace space, extent_of_isSpace space]
    refine .whitespace (by omega) (apart.isBefore_isSpace space) ?_
    exact (longestRun_isSpace_iff space).mpr rfl
  by_cases digit : char.isDigit = true
  · rw [kindOf_of_isDigit digit, extent_of_isDigit digit]
    exact .number (isAt_length.trans digit) (longestRun_succ_iff.mpr rfl)
  by_cases letter : isWordStart char = true
  · rw [kindOf_of_isWordStart letter, extent_of_isWordStart letter, wordKind, ← stretch_cons prior]
    split
    · rename_i known
      exact .keyword (isAt_length.trans letter) (longestRun_succ_iff.mpr rfl) known
    · rename_i unknown
      exact .identifier (isAt_length.trans letter) (longestRun_succ_iff.mpr rfl)
        (Bool.eq_false_iff.mpr unknown)
  · rw [kindOf, if_neg ends, if_neg space, if_neg digit, if_neg letter, extent, if_neg ends,
      if_neg space, if_neg digit, if_neg letter]
    exact .symbol getElem?_append_length (Bool.eq_false_iff.mpr ends) (Bool.eq_false_iff.mpr space)
      (Bool.eq_false_iff.mpr digit) (Bool.eq_false_iff.mpr letter)

/-- What comes behind a lexeme does not belong to it. -/
theorem apart_extent (prior : List Char) (char : Char) (rest : List Char) :
    Apart (prior ++ char :: rest.take (extent char rest)) (rest.drop (extent char rest)) := by
  apply apart_append
  intro last isLast next isNext
  have member := List.mem_of_getLast? isLast
  by_cases ends : isBreak char = true
  · by_cases both : char = '\r' ∧ rest.head? = some '\n'
    · obtain ⟨later, rfl⟩ := List.head?_eq_some_iff.mp both.2
      rw [extent, if_pos ends, if_pos both] at isLast
      obtain rfl : '\n' = last := Option.some.inj isLast
      exact ⟨fun space => absurd space (by decide), fun returns => absurd returns (by decide)⟩
    · rw [extent, if_pos ends, if_neg both] at isLast isNext
      obtain rfl := Option.some.inj isLast
      refine ⟨fun space => absurd ends (Bool.eq_false_iff.mp (isBreak_of_isSpace space)), ?_⟩
      rintro returns rfl
      exact both ⟨returns, isNext⟩
  by_cases space : isSpace char = true
  · rw [extent_of_isSpace space] at member isNext
    have spaces : ∀ other ∈ char :: rest.take (rest.takeWhile isSpace).length,
        isSpace other = true :=
      List.forall_mem_cons.mpr ⟨space, forall_mem_takeWhile isSpace rest⟩
    have outside := (longestRun_takeWhile isSpace [] rest).ends
    rw [Option.mem_def, List.head?_drop] at isNext
    refine ⟨fun _ => by simpa [isAt, isNext] using outside, ?_⟩
    rintro rfl
    exact absurd (spaces _ member) (by decide)
  · have solid : isWhiteSpace char = false := by simpa [isSpace, ends] using space
    have solids : ∀ other ∈ char :: rest.take (extent char rest), isWhiteSpace other = false :=
      List.forall_mem_cons.mpr ⟨solid, isWhiteSpace_of_mem_extent solid rest⟩
    have lastSolid := solids last member
    refine ⟨fun other => ?_, ?_⟩
    · exact absurd other (Bool.eq_false_iff.mp (isSpace_of_not_isWhiteSpace lastSolid))
    · rintro rfl
      exact absurd lastSolid (by decide)

end Lexeme

end Lexemes

section Munch

variable {keywords : KeywordSet} {metrics : GlyphMetrics κ} {size : κ} {text : List Char}
  {start : Nat} {token : Token κ} {later : List (Token κ)}

theorem maximalMunch_nil :
    MaximalMunch keywords metrics size text start [] ↔ start = text.length := by
  constructor
  · exact fun munch => munch.last
  · rintro rfl
    exact {
      nonempty := List.forall_mem_nil _
      first := nofun
      adjacent := nofun
      last := rfl
      munches := List.forall_mem_nil _
      widths := List.forall_mem_nil _ }

theorem maximalMunch_cons :
    MaximalMunch keywords metrics size text start (token :: later) ↔
      (token.start = start ∧ start < token.stop ∧
        Munches keywords text token.kind start token.stop ∧
        token.width = if token.kind = .newline then 0
          else metrics.runWidth (stretch text start token.stop) size) ∧
      MaximalMunch keywords metrics size text token.stop later := by
  constructor
  · intro munch
    obtain ⟨some, others⟩ := List.forall_mem_cons.mp munch.nonempty
    obtain ⟨here, laterMunches⟩ := List.forall_mem_cons.mp munch.munches
    obtain ⟨width, laterWidths⟩ := List.forall_mem_cons.mp munch.widths
    obtain rfl := munch.first token rfl
    refine ⟨⟨rfl, some, here, width⟩, others, ?_, ?_, ?_, laterMunches, laterWidths⟩
    · intro next follows
      rw [Option.mem_def, List.head?_eq_getElem?] at follows
      exact (munch.adjacent 0 token next rfl follows).symm
    · intro place token next found follows
      exact munch.adjacent (place + 1) token next found follows
    · have last := munch.last
      cases later with
      | nil => exact last
      | cons next rest => rwa [List.getLast?_cons_cons] at last
  · rintro ⟨⟨rfl, some, here, width⟩, munch⟩
    refine ⟨List.forall_mem_cons.mpr ⟨some, munch.nonempty⟩, ?_, ?_, ?_,
      List.forall_mem_cons.mpr ⟨here, munch.munches⟩,
      List.forall_mem_cons.mpr ⟨width, munch.widths⟩⟩
    · rintro other first
      obtain rfl := Option.some.inj first
      rfl
    · intro place other next found follows
      cases place with
      | zero =>
          obtain rfl := Option.some.inj found
          rw [List.getElem?_cons_succ, ← List.head?_eq_getElem?] at follows
          exact (munch.first next follows).symm
      | succ place => exact munch.adjacent place other next found follows
    · have last := munch.last
      cases later with
      | nil => exact last
      | cons next rest => rwa [List.getLast?_cons_cons]

/-! ## All lexemes -/

theorem tokensFrom_cons (keywords : KeywordSet) (metrics : GlyphMetrics κ) (size : κ)
    (start : Nat) (char : Char) (rest : List Char) :
    tokensFrom keywords metrics size start (char :: rest) =
      { kind := Lexeme.kindOf keywords char (rest.take (Lexeme.extent char rest))
        start
        stop := start + 1 + Lexeme.extent char rest
        width :=
          if Lexeme.kindOf keywords char (rest.take (Lexeme.extent char rest)) = .newline then 0
          else metrics.runWidth (char :: rest.take (Lexeme.extent char rest)) size } ::
        tokensFrom keywords metrics size (start + 1 + Lexeme.extent char rest)
          (rest.drop (Lexeme.extent char rest)) := by
  have length : start + (char :: rest.take (Lexeme.extent char rest)).length =
      start + 1 + Lexeme.extent char rest := by
    rw [List.length_cons, List.length_take, Nat.min_eq_left (Lexeme.extent_le char rest)]
    omega
  rw [tokensFrom, length]

/-- The tokens that munch a text are those that scanning makes, by induction on the rest. -/
theorem maximalMunch_iff {prior rest : List Char} {tokens : List (Token κ)}
    (apart : Apart prior rest) (begins : prior.length = start) :
    MaximalMunch keywords metrics size (prior ++ rest) start tokens ↔
      tokens = tokensFrom keywords metrics size start rest := by
  induction start, rest using tokensFrom.induct keywords metrics size
    generalizing prior tokens with
  | case1 start =>
      subst begins
      rw [tokensFrom, List.append_nil]
      cases tokens with
      | nil => simp [maximalMunch_nil]
      | cons token later =>
          rw [maximalMunch_cons]
          simp only [List.cons_ne_nil, iff_false, not_and]
          rintro ⟨-, -, munches, -⟩
          exact absurd munches.start_lt (Nat.lt_irrefl _)
  | case2 start char rest more =>
      rename_i inductionHypothesis
      subst begins
      -- Behind the first lexeme the text splits again at a place that nothing goes on over.
      have around : prior ++ char :: rest =
          prior ++ char :: rest.take (Lexeme.extent char rest) ++
            rest.drop (Lexeme.extent char rest) := by
        rw [List.append_assoc, List.cons_append, List.take_append_drop]
      have length : prior.length + (char :: rest.take (Lexeme.extent char rest)).length =
          prior.length + 1 + Lexeme.extent char rest := by
        rw [List.length_cons, List.length_take, Nat.min_eq_left (Lexeme.extent_le char rest),
          Nat.add_assoc, Nat.add_comm (Lexeme.extent char rest)]
      have laterMunch (later : List (Token κ)) :
          MaximalMunch keywords metrics size (prior ++ char :: rest)
              (prior.length + 1 + Lexeme.extent char rest) later ↔
            later = tokensFrom keywords metrics size (prior.length + 1 + Lexeme.extent char rest)
              (rest.drop (Lexeme.extent char rest)) := by
        rw [around, ← length]
        exact inductionHypothesis (Lexeme.apart_extent prior char rest) (List.length_append ..)
      rw [tokensFrom_cons]
      cases tokens with
      | nil => simp [maximalMunch_nil]
      | cons token later =>
          rw [maximalMunch_cons, List.cons.injEq]
          constructor
          · rintro ⟨⟨begins, -, munches, width⟩, munch⟩
            obtain ⟨kind, stop⟩ := Lexeme.eq_of_munches munches
            rw [stop] at munch
            rw [kind, stop, stretch_cons] at width
            refine ⟨?_, (laterMunch later).mp munch⟩
            cases token
            exact Token.mk.injEq .. |>.mpr ⟨kind, begins, stop, width⟩
          · rintro ⟨rfl, follows⟩
            refine ⟨⟨rfl, by simp only; omega, Lexeme.munches_extent keywords apart, ?_⟩,
              (laterMunch later).mpr follows⟩
            rw [stretch_cons]

theorem tokenizes_iff (keywords : KeywordSet) (metrics : GlyphMetrics κ) (size : κ)
    (text : List Char) (hasSeparator : Bool) (tokens : List (Token κ)) :
    Tokenizes keywords metrics size text hasSeparator tokens ↔
      tokens = tokensOfLine keywords metrics size text hasSeparator := by
  have whole (body : List (Token κ)) :
      MaximalMunch keywords metrics size text 0 body ↔
        body = tokensFrom keywords metrics size 0 text :=
    maximalMunch_iff (apart_nil text) rfl
  constructor
  · rintro ⟨body, munch, rfl⟩
    rw [(whole body).mp munch]
    rfl
  · rintro rfl
    exact ⟨_, (whole _).mpr rfl, rfl⟩

/-- Relexing leaves the one stream that maximal munch allows, whatever the stream
held, whatever word was looked up last, and whatever tokens a line had. -/
theorem tokens_maximalMunch (lexer : Lexer) (stream : TokenStream κ) (text : List Char)
    (hasSeparator : Bool) (metrics : GlyphMetrics κ) (size : κ) :
    (∀ tokens, Tokenizes lexer.keywords metrics size text hasSeparator tokens ↔
      tokens = (lexer.relex stream text hasSeparator metrics size).2) ∧
    (lexer.relex stream text hasSeparator metrics size).1.keywords = lexer.keywords ∧
    ∀ (editor : Editor κ) (line : Line κ) (tokens : List (Token κ)),
      tokens = (editor.relexed hasSeparator line).2.tokens ↔
        if editor.options.syntaxHighlight then
          Tokenizes editor.lexer.keywords editor.metrics editor.options.textSize
            (editor.charsOf line) hasSeparator tokens
        else tokens = [] := by
  obtain ⟨word, relexes⟩ := lexer.relex_eq stream text hasSeparator metrics size
  refine ⟨fun tokens => ?_, ?_, fun editor line tokens => ?_⟩
  · rw [relexes]
    exact tokenizes_iff lexer.keywords metrics size text hasSeparator tokens
  · rw [relexes]
  · obtain ⟨left, rebuilds⟩ := editor.relexed_eq hasSeparator line
    rw [rebuilds, tokenizes_iff, Editor.rebuilt]
    split <;> exact Iff.rfl

/-- The classes of a word of the set, a fraction with its suffix and three breaks. -/
example (metrics : GlyphMetrics κ) (size : κ) :
    (tokensFrom ⟨["go"]⟩ metrics size 0 "go 2.5f\r\n\r".toList).map Token.kind =
      [.keyword, .whitespace, .number, .newline, .newline] := by
  cbv

end Munch

end EditorCore
