import EditorCore.Proofs.Flow
import EditorCore.Proofs.Relexing

/-!
Contract: the classes that start and continue lexemes do not overlap.

Owns:
- when two sets of characters given by ranges have no character in common;
- that no part of a word or of a number is white space, and no start of a word a
  plain digit;
- the class and the extent of a lexeme that starts with a character of each class.

Does not own: how a text is cut into lexemes.
-/

namespace EditorCore

/-! ## Ranges -/

namespace CodeRanges

/-- No range of one set meets a range of the other. -/
def Disjoint (left right : CodeRanges) : Prop :=
  ∀ range ∈ left, ∀ other ∈ right, range.2 < other.1 ∨ other.2 < range.1

instance (left right : CodeRanges) : Decidable (left.Disjoint right) := by
  unfold Disjoint
  infer_instance

theorem exists_of_covers {ranges : CodeRanges} {code : Nat} (covered : ranges.covers code = true) :
    ∃ range ∈ ranges, range.1 ≤ code ∧ code ≤ range.2 := by
  induction ranges with
  | nil => exact absurd covered Bool.false_ne_true
  | cons range later inductionHypothesis =>
      rw [covers] at covered
      split at covered
      · exact absurd covered Bool.false_ne_true
      · rename_i after
        rcases Bool.or_eq_true_iff.mp covered with here | further
        · exact ⟨range, List.mem_cons_self, Nat.le_of_not_lt after, of_decide_eq_true here⟩
        · obtain ⟨other, member, bounds⟩ := inductionHypothesis further
          exact ⟨other, List.mem_cons_of_mem range member, bounds⟩

theorem Disjoint.covers_eq_false {left right : CodeRanges} (disjoint : left.Disjoint right)
    {code : Nat} (covered : left.covers code = true) : right.covers code = false := by
  rw [Bool.eq_false_iff]
  intro again
  obtain ⟨range, member, here⟩ := exists_of_covers covered
  obtain ⟨other, otherMember, there⟩ := exists_of_covers again
  have apart := disjoint range member other otherMember
  omega

end CodeRanges

/-! ## Plain characters -/

def plainDigits : CodeRanges := [(0x30, 0x39)]

def plainLetters : CodeRanges := [(0x41, 0x5A), (0x61, 0x7A)]

variable {char : Char}

theorem covers_of_isDigit (digit : char.isDigit = true) :
    plainDigits.covers char.toNat = true := by
  simp [Char.isDigit, UInt32.le_iff_toNat_le] at digit
  simp [plainDigits, CodeRanges.covers, digit]

theorem covers_of_isAlpha (letter : char.isAlpha = true) :
    plainLetters.covers char.toNat = true := by
  have cases : (char.isUpper || char.isLower) = true := letter
  have bounds : 0x41 ≤ char.toNat ∧ char.toNat ≤ 0x5A ∨ 0x61 ≤ char.toNat ∧ char.toNat ≤ 0x7A := by
    rcases Bool.or_eq_true_iff.mp cases with upper | lower
    · exact .inl (of_decide_eq_true upper)
    · obtain ⟨first, last⟩ := Bool.and_eq_true_iff.mp lower
      exact .inr ⟨of_decide_eq_true first, of_decide_eq_true last⟩
  simp [plainLetters, CodeRanges.covers]
  omega

/-! ## Classes of characters -/

/-- Whatever is no white space ends no line and is no space. -/
theorem isBreak_of_not_isWhiteSpace (solid : isWhiteSpace char = false) :
    isBreak char = false := by
  rw [isBreak_eq_false_iff]
  constructor
  · rintro rfl
    exact absurd solid (by decide)
  · rintro rfl
    exact absurd solid (by decide)

theorem isSpace_of_not_isWhiteSpace (solid : isWhiteSpace char = false) :
    isSpace char = false := by
  rw [isSpace, solid, Bool.false_and]

theorem isWhiteSpace_of_isDigit (digit : char.isDigit = true) : isWhiteSpace char = false :=
  (by decide : plainDigits.Disjoint whiteSpaceRanges).covers_eq_false (covers_of_isDigit digit)

theorem isWhiteSpace_of_isNumberPart (part : isNumberPart char = true) :
    isWhiteSpace char = false := by
  simp only [isNumberPart, Char.isAlphanum, Bool.or_eq_true, decide_eq_true_eq] at part
  rcases part with ((letter | digit) | rfl) | rfl
  · exact (by decide : plainLetters.Disjoint whiteSpaceRanges).covers_eq_false
      (covers_of_isAlpha letter)
  · exact isWhiteSpace_of_isDigit digit
  · rfl
  · rfl

theorem isWhiteSpace_of_isWordPart (part : isWordPart char = true) :
    isWhiteSpace char = false := by
  simp only [isWordPart, Bool.or_eq_true, decide_eq_true_eq] at part
  rcases part with (letter | numeral) | rfl
  · exact (by decide +kernel : alphabeticRanges.Disjoint whiteSpaceRanges).covers_eq_false letter
  · exact (by decide +kernel : numericRanges.Disjoint whiteSpaceRanges).covers_eq_false numeral
  · rfl

theorem isWordPart_of_isWordStart (start : isWordStart char = true) : isWordPart char = true := by
  simp only [isWordStart, isWordPart, Bool.or_eq_true] at start ⊢
  rcases start with letter | underscore
  · exact .inl (.inl letter)
  · exact .inr underscore

/-- A word does not start with a plain digit. -/
theorem isDigit_of_isWordStart (start : isWordStart char = true) : char.isDigit = false := by
  rw [Bool.eq_false_iff]
  intro digit
  have covered := covers_of_isDigit digit
  simp only [isWordStart, Bool.or_eq_true, decide_eq_true_eq] at start
  rcases start with letter | rfl
  · have apart : plainDigits.Disjoint alphabeticRanges := by decide +kernel
    exact absurd letter (by simp [isAlphabetic, apart.covers_eq_false covered])
  · exact absurd digit (by decide)

theorem isBreak_of_isSpace (space : isSpace char = true) : isBreak char = false := by
  rw [isSpace, Bool.and_eq_true, Bool.not_eq_true'] at space
  exact space.2

/-! ## Lexemes -/

namespace Lexeme

variable {keywords : KeywordSet} {rest : List Char}

theorem extent_of_isSpace (space : isSpace char = true) :
    extent char rest = (rest.takeWhile isSpace).length := by
  rw [extent, isBreak_of_isSpace space, if_neg Bool.false_ne_true, if_pos space]

theorem kindOf_of_isSpace (space : isSpace char = true) (more : List Char) :
    kindOf keywords char more = .whitespace := by
  rw [kindOf, isBreak_of_isSpace space, if_neg Bool.false_ne_true, if_pos space]

theorem extent_of_isDigit (digit : char.isDigit = true) :
    extent char rest = (rest.takeWhile isNumberPart).length := by
  have solid := isWhiteSpace_of_isDigit digit
  simp [extent, isBreak_of_not_isWhiteSpace solid, isSpace_of_not_isWhiteSpace solid, digit]

theorem kindOf_of_isDigit (digit : char.isDigit = true) (more : List Char) :
    kindOf keywords char more = .number := by
  have solid := isWhiteSpace_of_isDigit digit
  simp [kindOf, isBreak_of_not_isWhiteSpace solid, isSpace_of_not_isWhiteSpace solid, digit]

theorem extent_of_isWordStart (letter : isWordStart char = true) :
    extent char rest = (rest.takeWhile isWordPart).length := by
  have solid := isWhiteSpace_of_isWordPart (isWordPart_of_isWordStart letter)
  simp [extent, isBreak_of_not_isWhiteSpace solid, isSpace_of_not_isWhiteSpace solid,
    isDigit_of_isWordStart letter, letter]

theorem kindOf_of_isWordStart (letter : isWordStart char = true) (more : List Char) :
    kindOf keywords char more = wordKind keywords (char :: more) := by
  have solid := isWhiteSpace_of_isWordPart (isWordPart_of_isWordStart letter)
  simp only [kindOf, isBreak_of_not_isWhiteSpace solid, isSpace_of_not_isWhiteSpace solid,
    isDigit_of_isWordStart letter, letter, Bool.false_eq_true, if_false, if_true]

theorem extent_le (char : Char) (rest : List Char) : extent char rest ≤ rest.length := by
  have within (part : Char → Bool) : (rest.takeWhile part).length ≤ rest.length :=
    (List.takeWhile_sublist part).length_le
  rw [extent]
  repeat' split
  · rename_i feeds
    rcases rest with - | ⟨next, later⟩
    · exact absurd feeds.2 (by decide)
    · exact Nat.succ_le_succ (Nat.zero_le _)
  all_goals first | exact within _ | exact Nat.zero_le _

theorem forall_mem_takeWhile (part : Char → Bool) (rest : List Char) :
    ∀ char ∈ rest.take (rest.takeWhile part).length, part char = true := by
  rw [← List.prefix_iff_eq_take.mp (List.takeWhile_prefix part)]
  exact List.all_eq_true.mp List.all_takeWhile

theorem isWhiteSpace_of_mem_extent (solid : isWhiteSpace char = false) (rest : List Char) :
    ∀ other ∈ rest.take (extent char rest), isWhiteSpace other = false := by
  rw [extent, isBreak_of_not_isWhiteSpace solid, isSpace_of_not_isWhiteSpace solid,
    if_neg Bool.false_ne_true, if_neg Bool.false_ne_true]
  intro other member
  split at member
  · exact isWhiteSpace_of_isNumberPart (forall_mem_takeWhile isNumberPart rest other member)
  split at member
  · exact isWhiteSpace_of_isWordPart (forall_mem_takeWhile isWordPart rest other member)
  · exact absurd member List.not_mem_nil

end Lexeme

end EditorCore
