/-!
Contract: leading blanks and what they count as.

Owns:
- blanks, the characters of an indentation;
- the length of a line's leading run of blanks;
- how many indent units a run of blanks holds, and how many characters one
  step back out of an indentation removes.

Does not own: where a caret stands or what a unit is made of.
-/

namespace EditorCore

/-- Spaces and tabs indent a line. -/
def isBlank (char : Char) : Bool :=
  char = ' ' || char = '\t'

/-- The number of blanks that a line starts with. -/
def leadingBlanks (text : List Char) : Nat :=
  (text.takeWhile isBlank).length

/-- The whole indent units in a run of blanks: each tab is one, and spaces
count in groups of the tab size. -/
def indentUnits (tabSize : Nat) (indent : List Char) : Nat :=
  let tabs := indent.count '\t'
  tabs + (indent.length - tabs) / max tabSize 1

/-- The number of spaces that a run ends with. -/
def trailingSpaces (indent : List Char) : Nat :=
  (indent.reverse.takeWhile (· = ' ')).length

/-- The characters that one step back removes from the end of an indentation.
A trailing tab goes alone; trailing spaces go down to the next multiple of the
unit's length below their number. -/
def outdentWidth (indent : List Char) (unitLength : Nat) : Nat :=
  if indent = [] ∨ unitLength = 0 then 0
  else if trailingSpaces indent = 0 then 1
  else if trailingSpaces indent % unitLength = 0 then unitLength
  else trailingSpaces indent % unitLength

theorem leadingBlanks_le_length (text : List Char) :
    leadingBlanks text ≤ text.length := by
  unfold leadingBlanks
  exact (List.takeWhile_prefix isBlank).length_le

/-- The indentation is a prefix of the line. -/
theorem take_leadingBlanks (text : List Char) :
    text.take (leadingBlanks text) = text.takeWhile isBlank :=
  (List.prefix_iff_eq_take.mp (List.takeWhile_prefix isBlank)).symm

/-- A run of blanks holds no more units than it has characters. -/
theorem indentUnits_le_length (tabSize : Nat) (indent : List Char) :
    indentUnits tabSize indent ≤ indent.length := by
  have tabs : indent.count '\t' ≤ indent.length := List.count_le_length
  have groups : (indent.length - indent.count '\t') / max tabSize 1 ≤
      indent.length - indent.count '\t' := Nat.div_le_self _ _
  change indent.count '\t' + (indent.length - indent.count '\t') / max tabSize 1 ≤ _
  omega

/-- Two runs of blanks hold together at least what they hold alone: their partial groups
may make a whole one. -/
theorem indentUnits_add_le (tabSize : Nat) (first later : List Char) :
    indentUnits tabSize first + indentUnits tabSize later ≤
      indentUnits tabSize (first ++ later) := by
  have firstTabs : first.count '\t' ≤ first.length := List.count_le_length
  have laterTabs : later.count '\t' ≤ later.length := List.count_le_length
  have spaces : (first ++ later).length - (first ++ later).count '\t' =
      (first.length - first.count '\t') + (later.length - later.count '\t') := by
    rw [List.length_append, List.count_append]
    omega
  have groups : (first.length - first.count '\t') / max tabSize 1 +
      (later.length - later.count '\t') / max tabSize 1 ≤
        ((first.length - first.count '\t') + (later.length - later.count '\t')) /
          max tabSize 1 :=
    Nat.div_add_div_le_add_div
  rw [indentUnits, indentUnits, indentUnits, spaces, List.count_append]
  omega

/-- The units of a run of spaces are no wider than the run. -/
theorem indentUnits_mul_le_length (tabSize : Nat) {indent : List Char}
    (spaces : ∀ char ∈ indent, char = ' ') :
    indentUnits tabSize indent * max tabSize 1 ≤ indent.length := by
  have noTab : indent.count '\t' = 0 := by
    rw [List.count_eq_zero]
    intro tab
    exact absurd (spaces '\t' tab) (by decide)
  rw [indentUnits, noTab, Nat.zero_add, Nat.sub_zero]
  exact Nat.div_mul_le_self _ _

theorem trailingSpaces_le_length (indent : List Char) :
    trailingSpaces indent ≤ indent.length := by
  have bounded := (List.takeWhile_prefix (l := indent.reverse) (· = ' ')).length_le
  simpa [trailingSpaces] using bounded

/-- Spaces that are put at the end of a run are counted with those that it ends with. -/
theorem trailingSpaces_append_replicate (run : List Char) (count : Nat) :
    trailingSpaces (run ++ List.replicate count ' ') = count + trailingSpaces run := by
  rw [trailingSpaces, List.reverse_append, List.reverse_replicate,
    List.takeWhile_append_of_pos (by simp), List.length_append, List.length_replicate]
  rfl

/-- A step back always removes something where there is something. -/
theorem outdentWidth_pos {indent : List Char} {unitLength : Nat} (some : indent ≠ [])
    (positive : 0 < unitLength) : 0 < outdentWidth indent unitLength := by
  unfold outdentWidth
  rw [if_neg (not_or.mpr ⟨some, Nat.ne_of_gt positive⟩)]
  split
  · exact Nat.one_pos
  · split
    · exact positive
    · rename_i partly
      exact Nat.pos_of_ne_zero partly

/-- A step back never removes more than there is. -/
theorem outdentWidth_le_length (indent : List Char) (unitLength : Nat) :
    outdentWidth indent unitLength ≤ indent.length := by
  have spaces := trailingSpaces_le_length indent
  unfold outdentWidth
  split
  · exact Nat.zero_le _
  · rename_i nonempty
    have some : 0 < indent.length :=
      List.length_pos_iff.2 (fun empty => nonempty (Or.inl empty))
    split
    · exact some
    · rename_i positive
      split
      · rename_i whole
        exact Nat.le_trans
          (Nat.le_of_dvd (Nat.pos_of_ne_zero positive) (Nat.dvd_of_mod_eq_zero whole)) spaces
      · exact Nat.le_trans (Nat.mod_le _ _) spaces

end EditorCore
