import EditorCore.Proofs.Flow

/-!
Contract: the breaks of a text, and texts whose breaks are all alike.

Owns:
- `breaks`, the breaks of a text in order: together with the segments they give
  the text back, and the first of them is the style of the text;
- `joinedBy`, pieces with a break of one style between each two, from which
  pieces and breaks can be read back;
- `OneStyle`, the texts that their segments and their style determine.

Does not own: where lines stand in a document.
-/

namespace EditorCore

/-- The breaks of a text in order. -/
def breaks : List Char → List LineEnding
  | [] => []
  | '\r' :: '\n' :: rest => .crLf :: breaks rest
  | '\r' :: rest => .cr :: breaks rest
  | '\n' :: rest => .lf :: breaks rest
  | _ :: rest => breaks rest

/-- Pieces with given breaks between them. -/
def interleaved : List (List Char) → List LineEnding → List Char
  | [], _ => []
  | piece :: later, [] => piece ++ interleaved later []
  | piece :: later, ending :: endings => piece ++ ending.chars ++ interleaved later endings

/-- Pieces with a break of one style between each two. -/
def joinedBy (ending : LineEnding) (pieces : List (List Char)) : List Char :=
  ending.chars.intercalate pieces

/-- All breaks of a text are of one style. -/
def OneStyle (text : List Char) : Prop := ∃ style, ∀ ending ∈ breaks text, ending = style

/-! ## Reading up to the first break -/

/-- The characters of an ending are read as that ending before a text: what
follows a lone CR is not an LF. -/
def LineEnding.Before (ending : LineEnding) (text : List Char) : Prop :=
  ending = .cr → text.head? ≠ some '\n'

theorem segments_cons {char : Char} (ordinary : isBreak char = false) (text : List Char) :
    segments (char :: text) = (segments text).modifyHead (char :: ·) := by
  have other : char ≠ '\r' := (isBreak_eq_false_iff.mp ordinary).1
  have cut : cutAtBreaks (char :: text) =
      (char :: (cutAtBreaks text).1, (cutAtBreaks text).2) := by
    rw [cutAtBreaks, if_neg (Bool.eq_false_iff.mp ordinary)]
    rintro rest rfl
    exact absurd rfl other
  rw [segments, cut]
  rfl

theorem breaks_cons {char : Char} (ordinary : isBreak char = false) (text : List Char) :
    breaks (char :: text) = breaks text := by
  obtain ⟨notReturn, notFeed⟩ := isBreak_eq_false_iff.mp ordinary
  rw [breaks]
  · rintro rest rfl
    exact absurd rfl notReturn
  · exact notReturn
  · exact notFeed

theorem segments_append {line : List Char} (clean : Unbroken line) (text : List Char) :
    segments (line ++ text) = (segments text).modifyHead (line ++ ·) := by
  induction line with
  | nil => rfl
  | cons char rest inductionHypothesis =>
      obtain ⟨ordinary, later⟩ := List.forall_mem_cons.mp clean
      rw [List.cons_append, segments_cons ordinary, inductionHypothesis later,
        List.modifyHead_modifyHead]
      rfl

theorem breaks_append {line : List Char} (clean : Unbroken line) (text : List Char) :
    breaks (line ++ text) = breaks text := by
  induction line with
  | nil => rfl
  | cons char rest inductionHypothesis =>
      obtain ⟨ordinary, later⟩ := List.forall_mem_cons.mp clean
      rw [List.cons_append, breaks_cons ordinary, inductionHypothesis later]

/-- A text without breaks is one segment. -/
theorem segments_of_unbroken {text : List Char} (clean : Unbroken text) :
    segments text = [text] := by
  have cut := segments_append clean []
  rwa [List.append_nil, show segments [] = [[]] from rfl, List.modifyHead_cons,
    List.append_nil] at cut

theorem breaks_of_unbroken {text : List Char} (clean : Unbroken text) : breaks text = [] := by
  have none := breaks_append clean []
  rwa [List.append_nil] at none

theorem segments_ending {ending : LineEnding} {text : List Char} (before : ending.Before text) :
    segments (ending.chars ++ text) = [] :: segments text := by
  cases ending with
  | crLf => rfl
  | lf => simp [LineEnding.chars, segments, cutAtBreaks, isBreak]
  | cr =>
      have other := before rfl
      cases text with
      | nil => rfl
      | cons char rest =>
          simp only [List.head?_cons, ne_eq, Option.some.injEq] at other
          simp [LineEnding.chars, segments, cutAtBreaks, isBreak, other]

theorem breaks_ending {ending : LineEnding} {text : List Char} (before : ending.Before text) :
    breaks (ending.chars ++ text) = ending :: breaks text := by
  cases ending with
  | crLf => rfl
  | lf => simp [LineEnding.chars, breaks]
  | cr =>
      have other := before rfl
      cases text with
      | nil => rfl
      | cons char rest =>
          simp only [List.head?_cons, ne_eq, Option.some.injEq] at other
          simp [LineEnding.chars, breaks, other]

theorem detect_ending {ending : LineEnding} {text : List Char} (before : ending.Before text) :
    LineEnding.detect (ending.chars ++ text) = ending := by
  cases ending with
  | crLf => rfl
  | lf => simp [LineEnding.chars, LineEnding.detect]
  | cr =>
      have other := before rfl
      cases text with
      | nil => rfl
      | cons char rest =>
          simp only [List.head?_cons, ne_eq, Option.some.injEq] at other
          simp [LineEnding.chars, LineEnding.detect, other]

/-- A text is empty, or begins with an ordinary character or with a whole
break. -/
@[elab_as_elim]
theorem text_induction {motive : List Char → Prop} (nil : motive [])
    (ordinary : ∀ char text, isBreak char = false → motive text → motive (char :: text))
    (ending : ∀ (ending : LineEnding) (text : List Char), ending.Before text → motive text →
      motive (ending.chars ++ text))
    (text : List Char) : motive text := by
  fun_induction breaks text with
  | case1 => exact nil
  | case2 rest inductionHypothesis => exact ending .crLf rest nofun inductionHypothesis
  | case3 rest alone inductionHypothesis =>
      refine ending .cr rest ?_ inductionHypothesis
      intro _ feed
      obtain ⟨later, rfl⟩ := List.head?_eq_some_iff.mp feed
      exact alone later rfl
  | case4 rest inductionHypothesis => exact ending .lf rest nofun inductionHypothesis
  | case5 char rest _ notReturn notFeed inductionHypothesis =>
      exact ordinary char rest (isBreak_eq_false_iff.mpr ⟨notReturn, notFeed⟩) inductionHypothesis

/-! ## Segments and breaks -/

/-- The style of a text is that of its first break. -/
theorem detect_eq_headD (text : List Char) :
    LineEnding.detect text = (breaks text).headD .crLf := by
  induction text using text_induction with
  | nil => rfl
  | ordinary char text ordinary inductionHypothesis =>
      obtain ⟨notReturn, notFeed⟩ := isBreak_eq_false_iff.mp ordinary
      rw [breaks_cons ordinary, ← inductionHypothesis, LineEnding.detect]
      · rintro rest rfl
        exact absurd rfl notReturn
      · exact notReturn
      · exact notFeed
  | ending ending text before inductionHypothesis =>
      rw [detect_ending before, breaks_ending before]
      rfl

theorem interleaved_modifyHead (char : Char) {pieces : List (List Char)} (some : pieces ≠ [])
    (endings : List LineEnding) :
    interleaved (pieces.modifyHead (char :: ·)) endings = char :: interleaved pieces endings := by
  cases pieces with
  | nil => exact absurd rfl some
  | cons piece later => cases endings <;> rfl

/-- The breaks put back between the segments give the text. -/
theorem interleaved_segments (text : List Char) :
    interleaved (segments text) (breaks text) = text := by
  induction text using text_induction with
  | nil => rfl
  | ordinary char text ordinary inductionHypothesis =>
      rw [segments_cons ordinary, breaks_cons ordinary,
        interleaved_modifyHead char (segments_ne_nil text), inductionHypothesis]
  | ending ending text before inductionHypothesis =>
      rw [segments_ending before, breaks_ending before, interleaved, inductionHypothesis]
      rfl

/-- There is one segment more than there are breaks. -/
theorem length_segments (text : List Char) :
    (segments text).length = (breaks text).length + 1 := by
  induction text using text_induction with
  | nil => rfl
  | ordinary char text ordinary inductionHypothesis =>
      rw [segments_cons ordinary, breaks_cons ordinary, List.length_modifyHead,
        inductionHypothesis]
  | ending ending text before inductionHypothesis =>
      rw [segments_ending before, breaks_ending before, List.length_cons, List.length_cons,
        inductionHypothesis]

/-! ## Breaks of one style -/

theorem joinedBy_cons_cons (ending : LineEnding) (piece next : List Char)
    (later : List (List Char)) :
    joinedBy ending (piece :: next :: later) =
      piece ++ (ending.chars ++ joinedBy ending (next :: later)) := by
  rw [joinedBy, List.intercalate_cons_cons, List.append_assoc]
  rfl

theorem joinedBy_eq_interleaved (ending : LineEnding) (pieces : List (List Char)) :
    joinedBy ending pieces = interleaved pieces (List.replicate (pieces.length - 1) ending) := by
  induction pieces with
  | nil => rfl
  | cons piece later inductionHypothesis =>
      cases later with
      | nil => simp [joinedBy, interleaved]
      | cons next others =>
          rw [joinedBy_cons_cons, inductionHypothesis, ← List.append_assoc]
          rfl

/-- A break of the style goes before whatever pieces follow it. -/
theorem before_joinedBy (ending : LineEnding) {pieces : List (List Char)}
    (clean : ∀ piece ∈ pieces, Unbroken piece) : ending.Before (joinedBy ending pieces) := by
  rintro rfl feed
  cases pieces with
  | nil => exact absurd feed nofun
  | cons piece later =>
      cases piece with
      | nil =>
          cases later with
          | nil => exact absurd feed nofun
          | cons next others =>
              rw [joinedBy_cons_cons] at feed
              exact absurd (Option.some.inj feed) (by decide)
      | cons char rest =>
          have here : char = '\n' := by
            cases later with
            | nil => exact Option.some.inj feed
            | cons next others =>
                rw [joinedBy_cons_cons] at feed
                exact Option.some.inj feed
          have ordinary := clean (char :: rest) List.mem_cons_self char List.mem_cons_self
          exact (isBreak_eq_false_iff.mp ordinary).2 here

theorem withEnding_append {ending : LineEnding} {line : List Char} (clean : Unbroken line)
    (text : List Char) : withEnding ending (line ++ text) = line ++ withEnding ending text := by
  induction line with
  | nil => rfl
  | cons char rest inductionHypothesis =>
      obtain ⟨ordinary, later⟩ := List.forall_mem_cons.mp clean
      rw [List.cons_append, withEnding, inductionHypothesis later, List.cons_append]
      rintro tail rfl
      exact absurd rfl (isBreak_eq_false_iff.mp ordinary).1

section OneStyle

variable {ending : LineEnding} {pieces : List (List Char)}
  (clean : ∀ piece ∈ pieces, Unbroken piece)

include clean

/-- Cutting a text of one style gives its pieces back. -/
theorem segments_joinedBy (some : pieces ≠ []) : segments (joinedBy ending pieces) = pieces := by
  induction pieces with
  | nil => exact absurd rfl some
  | cons piece later inductionHypothesis =>
      obtain ⟨first, rest⟩ := List.forall_mem_cons.mp clean
      cases later with
      | nil =>
          rw [joinedBy, List.intercalate_singleton, segments_of_unbroken first]
      | cons next others =>
          rw [joinedBy_cons_cons, segments_append first,
            segments_ending (before_joinedBy ending rest),
            inductionHypothesis rest (List.cons_ne_nil _ _), List.modifyHead_cons,
            List.append_nil]

theorem breaks_joinedBy :
    breaks (joinedBy ending pieces) = List.replicate (pieces.length - 1) ending := by
  induction pieces with
  | nil => rfl
  | cons piece later inductionHypothesis =>
      obtain ⟨first, rest⟩ := List.forall_mem_cons.mp clean
      cases later with
      | nil =>
          rw [joinedBy, List.intercalate_singleton, breaks_of_unbroken first]
          rfl
      | cons next others =>
          rw [joinedBy_cons_cons, breaks_append first,
            breaks_ending (before_joinedBy ending rest), inductionHypothesis rest]
          rfl

/-- Writing a style for every separator of a normalised text writes the pieces in
that style. -/
theorem withEnding_joined : withEnding ending (joined pieces) = joinedBy ending pieces := by
  induction pieces with
  | nil => rfl
  | cons piece later inductionHypothesis =>
      obtain ⟨first, rest⟩ := List.forall_mem_cons.mp clean
      cases later with
      | nil =>
          rw [joined, joinedBy, List.intercalate_singleton, List.intercalate_singleton,
            ← List.append_nil piece, withEnding_append first]
          rfl
      | cons next others =>
          rw [joinedBy_cons_cons, ← inductionHypothesis rest, joined, List.intercalate_cons_cons,
            List.append_assoc, withEnding_append first]
          rfl

end OneStyle

/-- The segments of a text in the style of its first break give the text back
exactly when all of its breaks are of one style. -/
theorem joinedBy_segments_iff (text : List Char) :
    joinedBy (LineEnding.detect text) (segments text) = text ↔ OneStyle text := by
  have clean : ∀ piece ∈ segments text, Unbroken piece := fun _ => segments_unbroken
  constructor
  · intro same
    refine ⟨LineEnding.detect text, ?_⟩
    intro ending member
    rw [← same, breaks_joinedBy clean] at member
    exact List.eq_of_mem_replicate member
  · rintro ⟨style, alike⟩
    have first : ∀ ending ∈ breaks text, ending = LineEnding.detect text := by
      intro ending member
      rw [detect_eq_headD, alike ending member]
      cases found : breaks text with
      | nil => exact absurd (found ▸ member) List.not_mem_nil
      | cons head rest => exact (alike head (found ▸ List.mem_cons_self)).symm
    have replicated :
        breaks text = List.replicate ((segments text).length - 1) (LineEnding.detect text) := by
      rw [length_segments, Nat.add_sub_cancel]
      exact List.eq_replicate_of_mem first
    rw [joinedBy_eq_interleaved, ← replicated, interleaved_segments]

end EditorCore
