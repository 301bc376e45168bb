import EditorCore.Proofs.Acceptance
import EditorCore.Proofs.Breaks

/-!
Contract: a text that is typed character by character, pasted, or loaded into an
empty document becomes the same document.

Owns:
- `unpaired`, what is left to be typed of a text after a typed CR, and how typing
  goes through the segments of what is left;
- the typed text as a paste, by induction on its characters;
- `Editor.SameDocument`, the agreement of two editors in text, lines and caret.

Does not own: widths, which are summed up in another order by each way.
-/

namespace EditorCore

/-- A character that typing puts into the text, or a break. -/
def Typable (char : Char) : Prop := char ≠ '\t' ∧ (isControl char = true → isBreak char = true)

instance : DecidablePred Typable := fun char =>
  inferInstanceAs (Decidable (char ≠ '\t' ∧ (isControl char = true → isBreak char = true)))

/-! ## The breaks that typing finds -/

/-- What is left to be typed of a text.  After a typed CR an LF is the second half
of its break. -/
def unpaired : Bool → List Char → List Char
  | true, '\n' :: rest => rest
  | _, text => text

theorem unpaired_cons {afterCr : Bool} {char : Char}
    (other : ¬ (char = '\n' ∧ afterCr = true)) (text : List Char) :
    unpaired afterCr (char :: text) = char :: text := by
  rw [unpaired]
  rintro rest rfl same
  exact other ⟨(List.cons.inj same).1, rfl⟩

/-- A break splits off an empty segment, and the rest is cut as it is typed. -/
theorem segments_cons_break {char : Char} (ends : isBreak char = true) (text : List Char) :
    segments (char :: text) = [] :: segments (unpaired (char = '\r') text) := by
  have either : char = '\r' ∨ char = '\n' := by simpa [isBreak] using ends
  rcases either with rfl | rfl
  · by_cases pair : text.head? = some '\n'
    · obtain ⟨rest, rfl⟩ := List.head?_eq_some_iff.mp pair
      rfl
    · have alone : unpaired true text = text := by
        cases text with
        | nil => rfl
        | cons next rest => exact unpaired_cons (fun same => pair (congrArg some same.1)) rest
      have before : LineEnding.cr.Before text := fun _ => pair
      exact (segments_ending before).trans (congrArg ([] :: segments ·) alone.symm)
  · have before : LineEnding.lf.Before text := fun same => absurd same (by decide)
    exact segments_ending before

namespace Draft

variable (draft : Draft) {pieces : List (List Char)} (some : pieces ≠ [])

include some

/-- A break pasted is a line opened. -/
theorem pasted_cons_nil : draft.pasted ([] :: pieces) = draft.opened.pasted pieces := by
  cases pieces with
  | nil => exact absurd rfl some
  | cons piece later => rw [pasted, typed_nil, streamed, pasted]

/-- A character at the start of what is pasted is one typed before it. -/
theorem pasted_modifyHead (char : Char) :
    draft.pasted (pieces.modifyHead (char :: ·)) = (draft.typed [char]).pasted pieces := by
  cases pieces with
  | nil => exact absurd rfl some
  | cons piece later => rw [List.modifyHead_cons, pasted, pasted, typed_typed]; rfl

theorem length_text_le_pasted : draft.text.length ≤ (draft.pasted pieces).text.length := by
  rw [length_text_pasted draft some]
  exact Nat.le_add_right _ _

omit some in
/-- An empty text has one empty line. -/
theorem eq_blank_of_text (empty : draft.text = []) : draft = blank := by
  rw [text_eq_around] at empty
  obtain ⟨upper, below⟩ := List.append_eq_nil_iff.mp empty
  obtain ⟨above, current⟩ := List.append_eq_nil_iff.mp upper
  obtain ⟨before, after⟩ := List.append_eq_nil_iff.mp current
  have first : draft.above = [] := by
    cases shape : draft.above with
    | nil => rfl
    | cons line rest =>
        rw [shape, flow_true_cons] at above
        simp [separator] at above
  have last : draft.below = [] := by
    cases shape : draft.below with
    | nil => rfl
    | cons line rest =>
        rw [shape] at below
        simp [separator] at below
  exact (mk.injEq ..).mpr ⟨first, before, after, last⟩

end Draft

namespace Editor

variable {κ : Type} [Coordinate κ] {editor : Editor κ} {draft : Draft}

/-! ## Keystrokes -/

/-- What a typed character leaves alone, and what is remembered of it. -/
structure TypedAs (editor next : Editor κ) (char : Char) : Prop where
  look : next.look = editor.look
  capacity : next.buffer.capacity = editor.buffer.capacity
  afterTypedCr : next.afterTypedCr = decide (char = '\r')

theorem Settled.typedAs {next : Editor κ} {char : Char} {desired : Option Nat}
    (settled : Settled { editor with afterTypedCr := char = '\r' } next desired draft) :
    TypedAs editor next char where
  look := congrArg Surroundings.look settled.around
  capacity := congrArg Surroundings.capacity settled.around
  afterTypedCr := congrArg Surroundings.afterTypedCr settled.around

/-- A typed break opens a line. -/
theorem Shows.onCharacter_break (shows : editor.Shows draft)
    (multiline : editor.options.multiline = true) (plain : editor.options.autoIndent = false)
    {char : Char} (ends : isBreak char = true) (heard : ¬ (char = '\n' ∧ editor.afterTypedCr))
    (fits : draft.opened.text.length ≤ editor.buffer.capacity) :
    ∃ next, editor.onCharacter char = .ok (next, true) ∧
      Settled { editor with afterTypedCr := char = '\r' } next none draft.opened := by
  have accepted : draft.enter editor.options editor.buffer.capacity = .accepted draft.opened := by
    rw [Draft.length_text_opened] at fits
    simp [Draft.enter, multiline, Draft.level, plain, Verdict.within, fits, Draft.entered,
      Draft.indentation]
  have entered := (shows.withTypedCr (char = '\r')).insertLine
  change Ends _ _ _ _ (draft.enter editor.options editor.buffer.capacity) _ at entered
  rw [accepted] at entered
  rw [Editor.onCharacter, if_neg heard, if_pos ends]
  exact entered

/-- A typed character that is no break is put at the caret. -/
theorem Shows.onCharacter_ordinary (shows : editor.Shows draft) {char : Char}
    (typable : Typable char) (ordinary : isBreak char = false)
    (fits : (draft.typed [char]).text.length ≤ editor.buffer.capacity) :
    ∃ next, editor.onCharacter char = .ok (next, true) ∧
      Settled { editor with afterTypedCr := char = '\r' } next none (draft.typed [char]) := by
  have clean : Unbroken [char] := unbroken_singleton.mpr ordinary
  have notFeed : char ≠ '\n' := (isBreak_eq_false_iff.mp ordinary).2
  have notControl : ¬ isControl char = true := by
    intro control
    exact Bool.false_ne_true (ordinary.symm.trans (typable.2 control))
  have notBreak : ¬ isBreak char = true := Bool.eq_false_iff.mp ordinary
  have accepted : draft.type editor.buffer.capacity [char] = .accepted (draft.typed [char]) := by
    rw [Draft.length_text_typed] at fits
    exact if_pos fits
  have types := (shows.withTypedCr (char = '\r')).typeRun clean
  change Ends _ _ _ _ (draft.type editor.buffer.capacity [char]) _ at types
  rw [accepted] at types
  rw [Editor.onCharacter, if_neg (fun pair => notFeed pair.1), if_neg notBreak,
    if_neg typable.1, if_neg notControl, Editor.handle, Editor.insertChar, if_neg notBreak]
  exact types

/-- One character takes its part of what is left to be typed. -/
theorem Shows.step_onCharacter (shows : editor.Shows draft)
    (multiline : editor.options.multiline = true) (plain : editor.options.autoIndent = false)
    {char : Char} {rest : List Char} (typable : Typable char)
    (fits : (draft.pasted (segments (unpaired editor.afterTypedCr (char :: rest)))).text.length ≤
      editor.buffer.capacity) :
    ∃ next answer target, editor.step (.onCharacter char) = .ok (next, answer) ∧
      next.Shows target ∧ TypedAs editor next char ∧
      draft.pasted (segments (unpaired editor.afterTypedCr (char :: rest))) =
        target.pasted (segments (unpaired (char = '\r') rest)) := by
  by_cases pair : char = '\n' ∧ editor.afterTypedCr = true
  · have left : unpaired editor.afterTypedCr (char :: rest) = unpaired (char = '\r') rest := by
      rw [pair.1, pair.2]
      rfl
    have swallows : editor.onCharacter char =
        .ok ({ editor with afterTypedCr := char = '\r' }, false) := if_pos pair
    refine ⟨_, .applied false, draft, ?_, shows.withTypedCr (char = '\r'), ⟨rfl, rfl, rfl⟩,
      by rw [left]⟩
    rw [Editor.step, swallows]
    rfl
  · rw [unpaired_cons pair] at fits ⊢
    by_cases ends : isBreak char = true
    · have some := segments_ne_nil (unpaired (char = '\r') rest)
      rw [segments_cons_break ends, draft.pasted_cons_nil some] at fits ⊢
      obtain ⟨next, types, settled⟩ := shows.onCharacter_break multiline plain ends pair
        (Nat.le_trans (draft.opened.length_text_le_pasted some) fits)
      refine ⟨next, .applied true, draft.opened, ?_, settled.toShows, settled.typedAs, rfl⟩
      rw [Editor.step, types]
      rfl
    · have some := segments_ne_nil rest
      have ordinary : isBreak char = false := Bool.eq_false_iff.mpr ends
      have other : decide (char = '\r') = false :=
        decide_eq_false (isBreak_eq_false_iff.mp ordinary).1
      rw [segments_cons ordinary, draft.pasted_modifyHead some] at fits ⊢
      obtain ⟨next, types, settled⟩ := shows.onCharacter_ordinary typable ordinary
        (Nat.le_trans ((draft.typed [char]).length_text_le_pasted some) fits)
      refine ⟨next, .applied true, draft.typed [char], ?_, settled.toShows, settled.typedAs, ?_⟩
      · rw [Editor.step, types]
        rfl
      · rw [other]
        rfl

/-- Typing a text puts the segments of what is left of it. -/
theorem Shows.run_onCharacter (text : List Char) :
    ∀ {editor : Editor κ} {draft : Draft}, editor.Shows draft →
      editor.options.multiline = true → editor.options.autoIndent = false →
      (∀ char ∈ text, Typable char) →
      (draft.pasted (segments (unpaired editor.afterTypedCr text))).text.length ≤
        editor.buffer.capacity →
      ∃ last answers, editor.run (text.map .onCharacter) = .ok (last, answers) ∧
        last.Shows (draft.pasted (segments (unpaired editor.afterTypedCr text))) ∧
        last.look = editor.look := by
  induction text with
  | nil =>
      intro editor draft shows _ _ _ _
      have nothing : draft.pasted (segments (unpaired editor.afterTypedCr [])) = draft := by
        have rest : unpaired editor.afterTypedCr [] = [] := by cases editor.afterTypedCr <;> rfl
        rw [rest]
        exact draft.typed_nil
      exact ⟨editor, [], rfl, nothing.symm ▸ shows, rfl⟩
  | cons char rest inductionHypothesis =>
      intro editor draft shows multiline plain typable fits
      obtain ⟨here, later⟩ := List.forall_mem_cons.mp typable
      obtain ⟨next, answer, target, steps, nextShows, typedAs, same⟩ :=
        shows.step_onCharacter multiline plain here fits
      have options : next.options = editor.options := congrArg Look.options typedAs.look
      rw [same] at fits ⊢
      rw [← typedAs.afterTypedCr, ← typedAs.capacity] at fits
      rw [← typedAs.afterTypedCr, ← typedAs.look]
      rw [← options] at multiline plain
      obtain ⟨last, answers, runs, lastShows, look⟩ :=
        inductionHypothesis nextShows multiline plain later fits
      exact ⟨last, answer :: answers, run_cons steps runs, lastShows, look⟩

/-! ## The three ways -/

/-- A paste that fits puts its segments. -/
theorem Shows.step_paste (shows : editor.Shows draft)
    (multiline : editor.options.multiline = true) {text : String}
    (fits : (draft.pasted (segments text.toList)).text.length ≤ editor.buffer.capacity) :
    ∃ next, editor.step (.paste text) = .ok (next, .pasted (.ok true)) ∧
      next.Shows (draft.pasted (segments text.toList)) ∧ next.look = editor.look := by
  rw [Draft.length_text_pasted draft (segments_ne_nil text.toList)] at fits
  have accepted : (editor.manuscript draft).verdict (.paste text) =
      .accepted (draft.pasted (segments text.toList)) :=
    Draft.paste_eq_accepted.mpr ⟨fun _ => multiline, fits, rfl⟩
  obtain ⟨next, steps, makes⟩ := shows.step_of_accepted accepted
  exact ⟨next, steps, makes.toShows, makes.look⟩

/-- A document that fits is put into a blank draft. -/
theorem Shows.step_loadDocument (shows : editor.Shows draft) {text : String}
    (fits : joinedLength (segments text.toList) ≤ editor.buffer.capacity) :
    ∃ next, editor.step (.loadDocument text) = .ok (next, .loaded (.ok ())) ∧
      next.Shows (Draft.blank.pasted (segments text.toList)) ∧ next.look = editor.look := by
  obtain ⟨next, loads, settled⟩ := shows.loadDocument fits
  refine ⟨next, ?_, settled.toShows, congrArg Surroundings.look settled.around⟩
  rw [Editor.step, loads]
  rfl

/-- Two editors have the same text, the same lines, tokens included, and the caret
at the same place. -/
structure SameDocument (editor other : Editor κ) : Prop where
  text : editor.text = other.text
  lines : editor.lines.lines = other.lines.lines
  caret : editor.cursor.caret = other.cursor.caret
  position : editor.position = other.position

/-- Editors that show one draft in one look have the same document. -/
theorem Shows.sameDocument {other : Editor κ} (shows : editor.Shows draft)
    (others : other.Shows draft) (look : editor.look = other.look) :
    editor.SameDocument other where
  text := by rw [Editor.text, Editor.text, Buffer.content, Buffer.content, shows.text, others.text]
  lines := congrArg LineTable.lines (shows.toRepresents.lines_eq others.toRepresents rfl look)
  caret := by rw [shows.caret, others.caret]
  position := by rw [shows.position_eq, others.position_eq]

/-- Where every break counts and no indentation is added, a text that fits becomes
the same document whether it is typed or pasted, and in an empty document also when
it is loaded: typing finds the breaks that cutting finds. -/
theorem typing_pasting_loading_agree (reachable : editor.Reachable)
    (multiline : editor.options.multiline = true) (plain : editor.options.autoIndent = false)
    (apart : editor.afterTypedCr = false) {text : String}
    (typable : ∀ char ∈ text.toList, Typable char)
    (fits : joinedLength (segments text.toList) ≤ editor.buffer.remaining) :
    ∃ typed answers pasted before,
      editor.run (text.toList.map .onCharacter) = .ok (typed, answers) ∧
        editor.step (.paste text) = .ok (pasted, .pasted (.ok true)) ∧
        typed.SameDocument pasted ∧
        editor.Reads before ∧ typed.Reads (before.pasted (segments text.toList)) ∧
        (editor.buffer.length = 0 →
          ∃ loaded, editor.step (.loadDocument text) = .ok (loaded, .loaded (.ok ())) ∧
            typed.SameDocument loaded ∧ pasted.SameDocument loaded ∧
            loaded.Reads (PlainText.loaded text)) := by
  obtain ⟨draft, shows⟩ := reachable.shows
  have whole : unpaired editor.afterTypedCr text.toList = text.toList := by
    rw [apart]
    rfl
  have room : draft.text.length + joinedLength (segments text.toList) ≤
      editor.buffer.capacity := by
    have bounded := shows.bounded
    rw [Buffer.remaining, shows.length] at fits
    omega
  have together : (draft.pasted (segments text.toList)).text.length ≤ editor.buffer.capacity := by
    rw [Draft.length_text_pasted draft (segments_ne_nil text.toList)]
    exact room
  obtain ⟨typed, answers, runs, typedShows, typedLook⟩ :=
    Shows.run_onCharacter text.toList shows multiline plain typable (whole.symm ▸ together)
  obtain ⟨pasted, pastes, pastedShows, pastedLook⟩ := shows.step_paste multiline together
  rw [whole] at typedShows
  have reads := typedShows.reads
  rw [draft.plain_pasted (segments_ne_nil text.toList)] at reads
  refine ⟨typed, answers, pasted, draft.plain, runs, pastes,
    typedShows.sameDocument pastedShows (typedLook.trans pastedLook.symm), shows.reads, reads, ?_⟩
  intro empty
  have blank : draft = Draft.blank := by
    apply draft.eq_blank_of_text
    apply List.eq_nil_of_length_eq_zero
    rw [← shows.length, empty]
  obtain ⟨loaded, loads, loadedShows, loadedLook⟩ :=
    shows.step_loadDocument (Nat.le_trans (Nat.le_add_left _ _) room)
  have loadedReads := loadedShows.reads
  rw [Draft.plain_loaded] at loadedReads
  rw [← blank] at loadedShows
  exact ⟨loaded, loads, typedShows.sameDocument loadedShows (typedLook.trans loadedLook.symm),
    pastedShows.sameDocument loadedShows (pastedLook.trans loadedLook.symm), loadedReads⟩

/-- A new editor that repeats no indentation. -/
def unindented : Editor Float32 :=
  ofSettings { Settings.standard with autoIndent := false }
    (GlyphMetrics.monospace GlyphMetrics.standardCell)

theorem reachable_unindented : unindented.Reachable := by
  have creates :
      create { Settings.standard with autoIndent := false }
        (GlyphMetrics.monospace GlyphMetrics.standardCell) = .ok unindented := rfl
  exact .created (by decide) creates

/-- Breaks of all kinds next to one another. -/
theorem typing_pasting_loading_agree_unindented :
    ∃ typed answers pasted loaded,
      unindented.run ("a\r\r\n\n\rb".toList.map .onCharacter) = .ok (typed, answers) ∧
        unindented.step (.paste "a\r\r\n\n\rb") = .ok (pasted, .pasted (.ok true)) ∧
        unindented.step (.loadDocument "a\r\r\n\n\rb") = .ok (loaded, .loaded (.ok ())) ∧
        typed.SameDocument pasted ∧ typed.SameDocument loaded ∧
        loaded.Reads { lines := [['a'], [], [], [], ['b']], row := 4, column := 1 } := by
  have typable : ∀ char ∈ "a\r\r\n\n\rb".toList, Typable char := by
    have all : "a\r\r\n\n\rb".toList.all (fun char => decide (Typable char)) = true := by decide
    intro char member
    exact of_decide_eq_true (List.all_eq_true.mp all char member)
  have fits : joinedLength (segments "a\r\r\n\n\rb".toList) ≤ unindented.buffer.remaining := by
    decide
  obtain ⟨typed, answers, pasted, -, runs, pastes, same, -, -, empty⟩ :=
    typing_pasting_loading_agree reachable_unindented rfl rfl rfl typable fits
  obtain ⟨loaded, loads, alike, -, reads⟩ := empty rfl
  have found : PlainText.loaded "a\r\r\n\n\rb" =
      { lines := [['a'], [], [], [], ['b']], row := 4, column := 1 } := by decide
  exact ⟨typed, answers, pasted, loaded, runs, pastes, loads, same, alike, found ▸ reads⟩

end Editor

end EditorCore
