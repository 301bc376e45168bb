import EditorCore.Text.Break

/-!
Contract: texts written one after another with separators between them.

Owns:
- `flow`, the characters of a list of texts, with or without a separator after
  the last one, and how it splits over concatenation;
- its agreement with `joined` and `joinedLength`;
- the pieces of a cut text: there is always one, and none of them has a break.

Does not own: spans of lines, or what a break looks like in the input.
-/

namespace EditorCore

/-- The characters of texts in order, with a separator between each two.  A
closed flow has one after the last text as well. -/
def flow (closed : Bool) : List (List Char) → List Char
  | [] => []
  | text :: later =>
      text ++ (if closed || !later.isEmpty then separator else []) ++ flow closed later

/-- No character of a text ends a line. -/
def Unbroken (text : List Char) : Prop := ∀ char ∈ text, isBreak char = false

instance (text : List Char) : Decidable (Unbroken text) :=
  List.decidableBAll (fun char => isBreak char = false) text

theorem isBreak_eq_false_iff {char : Char} :
    isBreak char = false ↔ char ≠ '\r' ∧ char ≠ '\n' := by
  simp [isBreak]

@[simp]
theorem unbroken_nil : Unbroken [] := List.forall_mem_nil _

@[simp]
theorem unbroken_singleton {char : Char} : Unbroken [char] ↔ isBreak char = false :=
  List.forall_mem_singleton

theorem unbroken_append {first second : List Char} :
    Unbroken (first ++ second) ↔ Unbroken first ∧ Unbroken second :=
  List.forall_mem_append

@[simp]
theorem length_separator : separator.length = separatorLength := rfl

@[simp]
theorem flow_nil (closed : Bool) : flow closed [] = [] := rfl

theorem flow_true_cons (text : List Char) (later : List (List Char)) :
    flow true (text :: later) = text ++ separator ++ flow true later := rfl

@[simp]
theorem flow_false_singleton (text : List Char) : flow false [text] = text := by
  simp [flow]

theorem flow_false_cons_cons (text next : List Char) (later : List (List Char)) :
    flow false (text :: next :: later) = text ++ separator ++ flow false (next :: later) := rfl

/-- What stands before a later text is closed. -/
theorem flow_append (closed : Bool) (first later : List (List Char)) :
    flow closed (first ++ later) =
      flow (closed || !later.isEmpty) first ++ flow closed later := by
  induction first with
  | nil => rfl
  | cons text rest inductionHypothesis =>
      simp only [List.cons_append, flow, inductionHypothesis, List.append_assoc]
      cases rest <;> simp

@[simp]
theorem flow_true_append (first later : List (List Char)) :
    flow true (first ++ later) = flow true first ++ flow true later := by
  rw [flow_append, Bool.true_or]

theorem flow_append_cons (closed : Bool) (first : List (List Char)) (text : List Char)
    (later : List (List Char)) :
    flow closed (first ++ text :: later) = flow true first ++ flow closed (text :: later) := by
  rw [flow_append]
  simp

/-- A text and the separator that follows it come before the rest of a flow. -/
theorem length_flow_cons (closed : Bool) (text : List Char) (later : List (List Char)) :
    text.length + (if later = [] then 0 else separatorLength) + (flow closed later).length ≤
      (flow closed (text :: later)).length := by
  cases later with
  | nil => simp [flow]
  | cons next rest =>
      rw [if_neg (List.cons_ne_nil next rest)]
      simp only [flow, List.isEmpty_cons, Bool.not_false, Bool.or_true, if_true,
        List.length_append, length_separator]
      omega

theorem length_le_flow_true (lines : List (List Char)) :
    lines.length ≤ (flow true lines).length := by
  induction lines with
  | nil => exact Nat.zero_le 0
  | cons line rest inductionHypothesis =>
      rw [flow_true_cons]
      simp only [List.length_append, List.length_cons, length_separator, separatorLength]
      omega

/-! ## The normalised form -/

theorem joined_eq_flow (pieces : List (List Char)) : joined pieces = flow false pieces := by
  induction pieces with
  | nil => rfl
  | cons text rest inductionHypothesis =>
      cases rest with
      | nil => simp [joined, List.intercalate]
      | cons next later =>
          rw [flow_false_cons_cons, ← inductionHypothesis]
          simp [joined, List.intercalate]

/-- Capacity checks count exactly the characters of the normalised form. -/
theorem length_flow_false (pieces : List (List Char)) :
    (flow false pieces).length = joinedLength pieces := by
  induction pieces with
  | nil => rfl
  | cons text rest inductionHypothesis =>
      cases rest with
      | nil => simp [joinedLength]
      | cons next later =>
          rw [flow_false_cons_cons]
          simp only [List.length_append, inductionHypothesis, length_separator, joinedLength,
            List.flatten_cons, List.length_cons, separatorLength]
          omega

/-! ## The pieces of a cut text -/

theorem cutAtBreaks_unbroken (text : List Char) :
    Unbroken (cutAtBreaks text).1 ∧ ∀ piece ∈ (cutAtBreaks text).2, Unbroken piece := by
  fun_induction cutAtBreaks text with
  | case1 => simp
  | case2 rest after inductionHypothesis =>
      exact ⟨unbroken_nil, by simpa using inductionHypothesis⟩
  | case3 char rest _ after ends inductionHypothesis =>
      exact ⟨unbroken_nil, by simpa using inductionHypothesis⟩
  | case4 char rest _ after continues inductionHypothesis =>
      refine ⟨?_, inductionHypothesis.2⟩
      intro other member
      rcases List.mem_cons.mp member with rfl | later
      · simpa using continues
      · exact inductionHypothesis.1 other later

/-- Cutting leaves no break in any piece. -/
theorem segments_unbroken {text piece : List Char} (member : piece ∈ segments text) :
    Unbroken piece := by
  have unbroken := cutAtBreaks_unbroken text
  rcases List.mem_cons.mp member with rfl | later
  · exact unbroken.1
  · exact unbroken.2 piece later

theorem segments_ne_nil (text : List Char) : segments text ≠ [] := by
  simp [segments]

end EditorCore
