import EditorCore.Proofs.Breaks

/-!
Contract: cutting a text at its breaks finds all of them and nothing else.

Owns:
- `CutAs`, the cuts of a text at CR LF, at a lone CR and at a lone LF, and that the segments
  and the breaks of a text are its only cut;
- how many breaks a text has, counted by its characters alone;
- `LineEnding.inBytes`, the style of a text looked up in its UTF-8 bytes;
- `ExactlyCut`, what the segments, the breaks and the normalised forms of a text have to do
  with each other.

Does not own: what becomes of the segments in a document.
-/

namespace EditorCore

/-! ## The cuts of a text -/

/-- A text consists of lines without breaks and of breaks between them.  A CR that an LF
follows is no break by itself. -/
inductive CutAs : List Char → List (List Char) → List LineEnding → Prop
  | last {line : List Char} (clean : Unbroken line) : CutAs line [line] []
  | broken {line text : List Char} {pieces : List (List Char)} {ending : LineEnding}
      {endings : List LineEnding} (clean : Unbroken line) (before : ending.Before text)
      (rest : CutAs text pieces endings) :
      CutAs (line ++ (ending.chars ++ text)) (line :: pieces) (ending :: endings)

namespace CutAs

variable {text : List Char} {pieces : List (List Char)} {endings : List LineEnding}

/-- An ordinary character belongs to the first line. -/
theorem cons {char : Char} (ordinary : isBreak char = false) (cut : CutAs text pieces endings) :
    CutAs (char :: text) (pieces.modifyHead (char :: ·)) endings := by
  cases cut with
  | last clean => exact .last (List.forall_mem_cons.mpr ⟨ordinary, clean⟩)
  | broken clean before rest =>
      exact .broken (List.forall_mem_cons.mpr ⟨ordinary, clean⟩) before rest

/-- There is no other cut than the segments and the breaks. -/
theorem eq_segments (cut : CutAs text pieces endings) :
    segments text = pieces ∧ breaks text = endings := by
  induction cut with
  | last clean => exact ⟨segments_of_unbroken clean, breaks_of_unbroken clean⟩
  | broken clean before _ inductionHypothesis =>
      obtain ⟨same, alike⟩ := inductionHypothesis
      constructor
      · rw [segments_append clean, segments_ending before, same, List.modifyHead_cons,
          List.append_nil]
      · rw [breaks_append clean, breaks_ending before, alike]

end CutAs

theorem cutAs_segments (text : List Char) : CutAs text (segments text) (breaks text) := by
  induction text using text_induction with
  | nil => exact .last unbroken_nil
  | ordinary char text ordinary inductionHypothesis =>
      rw [segments_cons ordinary, breaks_cons ordinary]
      exact inductionHypothesis.cons ordinary
  | ending ending text before inductionHypothesis =>
      rw [segments_ending before, breaks_ending before]
      exact .broken unbroken_nil before inductionHypothesis

theorem cutAs_iff {text : List Char} {pieces : List (List Char)} {endings : List LineEnding} :
    CutAs text pieces endings ↔ segments text = pieces ∧ breaks text = endings := by
  constructor
  · exact CutAs.eq_segments
  · rintro ⟨rfl, rfl⟩
    exact cutAs_segments text

/-! ## The number of breaks -/

/-- How often a CR is directly followed by an LF. -/
def pairs (text : List Char) : Nat := (text.zip text.tail).count ('\r', '\n')

theorem pairs_cons (char : Char) (text : List Char) :
    pairs (char :: text) =
      (if char = '\r' ∧ text.head? = some '\n' then 1 else 0) + pairs text := by
  cases text with
  | nil => simp [pairs]
  | cons next rest =>
      rw [pairs, List.tail_cons, List.zip_cons_cons, List.count_cons, Nat.add_comm]
      simp [pairs]

/-- Every CR and every LF is a break, but a CR and the LF that follows it are one. -/
theorem length_breaks_add_pairs (text : List Char) :
    (breaks text).length + pairs text = text.count '\r' + text.count '\n' := by
  induction text using text_induction with
  | nil => rfl
  | ordinary char text ordinary inductionHypothesis =>
      obtain ⟨notReturn, notFeed⟩ := isBreak_eq_false_iff.mp ordinary
      rw [breaks_cons ordinary, pairs_cons, if_neg (fun both => notReturn both.1), Nat.zero_add,
        inductionHypothesis, List.count_cons_of_ne notReturn, List.count_cons_of_ne notFeed]
  | ending ending text before inductionHypothesis =>
      rw [breaks_ending before, List.length_cons]
      -- One more break: CR LF is a pair and both characters of it, the others are one character.
      cases ending with
      | crLf => grind [LineEnding.chars, pairs_cons]
      | lf => grind [LineEnding.chars, pairs_cons]
      | cr => grind [LineEnding.chars, pairs_cons, before rfl]

example :
    breaks ['\r', '\r', '\n', '\n', '\r'] = [.cr, .crLf, .lf, .cr] ∧
      pairs ['\r', '\r', '\n', '\n', '\r'] = 1 := by decide

/-! ## The style in the bytes -/

namespace LineEnding

/-- The break that bytes begin with, read by its first two bytes. -/
def ofBytes : List UInt8 → LineEnding
  | 13 :: 10 :: _ => crLf
  | 13 :: _ => cr
  | _ => lf

/-- The style of a text, looked up in its UTF-8 bytes at the offset of its first CR or LF. -/
def inBytes (text : List Char) : LineEnding :=
  match text.findIdx? isBreak with
  | none => crLf
  | some index =>
      ofBytes ((text.flatMap String.utf8EncodeChar).drop
        ((text.take index).flatMap String.utf8EncodeChar).length)

/-- The bytes from a character's offset on are those of the text from that character on. -/
theorem inBytes_of_findIdx? {text : List Char} {index : Nat}
    (found : text.findIdx? isBreak = some index) :
    inBytes text = ofBytes ((text.drop index).flatMap String.utf8EncodeChar) := by
  have whole : text.flatMap String.utf8EncodeChar =
      (text.take index).flatMap String.utf8EncodeChar ++
        (text.drop index).flatMap String.utf8EncodeChar := by
    rw [← List.flatMap_append, List.take_append_drop]
  rw [inBytes, found, whole]
  simp only [List.drop_left]

theorem inBytes_cons {char : Char} (ordinary : isBreak char = false) (text : List Char) :
    inBytes (char :: text) = inBytes text := by
  have next : (char :: text).findIdx? isBreak = (text.findIdx? isBreak).map (· + 1) := by
    rw [List.findIdx?_cons, ordinary]
    rfl
  cases found : text.findIdx? isBreak with
  | none =>
      rw [found] at next
      rw [inBytes, inBytes, next, found]
      rfl
  | some index =>
      rw [found] at next
      rw [inBytes_of_findIdx? next, inBytes_of_findIdx? found, List.drop_succ_cons]

/-- Only an LF begins with the byte of an LF. -/
theorem head?_utf8EncodeChar_ne {char : Char} (other : char ≠ '\n') :
    (String.utf8EncodeChar char).head? ≠ some 10 := by
  have value : char.val.toNat ≠ 10 :=
    fun same => other (Char.ext (UInt32.toNat_inj.mp same))
  have apart {byte : Nat} (small : byte < 256) (differs : byte ≠ 10) :
      UInt8.ofNat byte ≠ 10 := by
    rw [ne_eq, ← UInt8.toNat_inj, UInt8.toNat_ofNat', Nat.mod_eq_of_lt small]
    exact differs
  -- A character takes one to four bytes; all but a single byte begin at 192 or later.
  unfold String.utf8EncodeChar
  intro same
  dsimp only at same
  split at same
  · exact apart (by omega) value (Option.some.inj same)
  · split at same
    · exact apart (by omega) (by omega) (Option.some.inj same)
    · split at same
      · exact apart (by omega) (by omega) (Option.some.inj same)
      · exact apart (by omega) (by omega) (Option.some.inj same)

theorem head?_bytes_ne {text : List Char} (other : text.head? ≠ some '\n') :
    (text.flatMap String.utf8EncodeChar).head? ≠ some 10 := by
  cases text with
  | nil => exact nofun
  | cons char rest =>
      rw [List.head?_cons, ne_eq, Option.some_inj] at other
      have first := head?_utf8EncodeChar_ne other
      obtain ⟨byte, more, bytes⟩ :=
        List.exists_cons_of_ne_nil (String.utf8EncodeChar_ne_nil (c := char))
      rw [bytes] at first
      rw [List.flatMap_cons, bytes]
      exact first

/-- A CR that no LF follows is a break by itself. -/
theorem ofBytes_return {bytes : List UInt8} (other : bytes.head? ≠ some 10) :
    ofBytes (13 :: bytes) = cr := by
  rw [ofBytes]
  rintro rest rfl
  exact other rfl

/-- The bytes of a text name the same style as its characters: a CR byte is followed by an LF
byte only where an LF follows. -/
theorem inBytes_eq_detect (text : List Char) : inBytes text = detect text := by
  induction text using text_induction with
  | nil => rfl
  | ordinary char text ordinary inductionHypothesis =>
      rw [inBytes_cons ordinary, inductionHypothesis, detect_eq_headD, detect_eq_headD,
        breaks_cons ordinary]
  | ending ending text before inductionHypothesis =>
      rw [detect_ending before]
      cases ending with
      | crLf => rfl
      | lf => rfl
      | cr =>
          rw [inBytes_of_findIdx? rfl]
          exact ofBytes_return (head?_bytes_ne (before rfl))

end LineEnding

/-! ## All of it -/

/-- What a text, its segments, its breaks and its normalised forms have to do with each other. -/
structure ExactlyCut (text : List Char) : Prop where
  unbroken : ∀ piece ∈ segments text, Unbroken piece
  interleaves : interleaved (segments text) (breaks text) = text
  /-- No other lines with other breaks between them make up the text. -/
  only : ∀ pieces endings,
    CutAs text pieces endings ↔ segments text = pieces ∧ breaks text = endings
  separates : (segments text).length = (breaks text).length + 1
  count : (breaks text).length + pairs text = text.count '\r' + text.count '\n'
  /-- Capacity checks count the normalised form. -/
  required : joinedLength (segments text) = (joined (segments text)).length
  style : LineEnding.detect text = (breaks text).headD .crLf
  bytes : LineEnding.inBytes text = LineEnding.detect text
  recut : ∀ ending, segments (joinedBy ending (segments text)) = segments text
  rejoined : ∀ ending other,
    joinedBy other (segments (joinedBy ending (segments text))) = joinedBy other (segments text)
  idempotent : joined (segments (joined (segments text))) = joined (segments text)

/-- Every text is cut exactly at its breaks, and its lines can be read back from all three of
its normalised forms. -/
theorem text_exactlyCut (text : List Char) : ExactlyCut text := by
  have recut (ending : LineEnding) :
      segments (joinedBy ending (segments text)) = segments text :=
    segments_joinedBy (fun _ => segments_unbroken) (segments_ne_nil text)
  exact {
    unbroken := fun _ => segments_unbroken
    interleaves := interleaved_segments text
    only := fun _ _ => cutAs_iff
    separates := length_segments text
    count := length_breaks_add_pairs text
    required := by rw [joined_eq_flow, length_flow_false]
    style := detect_eq_headD text
    bytes := LineEnding.inBytes_eq_detect text
    recut
    rejoined := fun ending other => congrArg (joinedBy other) (recut ending)
    idempotent := congrArg joined (recut .crLf) }

end EditorCore
