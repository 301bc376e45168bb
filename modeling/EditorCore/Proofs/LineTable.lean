import EditorCore.LineTable

/-!
Contract: what changes of a table do when it is cut at a line.

Owns: looking up, changing, shifting behind, splitting and folding the line
after a front part of the table, each as an equation on the parts.

Does not own: which texts the lines stand for.
-/

namespace EditorCore

theorem modify_append_cons {α : Type} (change : α → α) (front : List α) (item : α)
    (back : List α) :
    (front ++ item :: back).modify front.length change = front ++ change item :: back := by
  induction front with
  | nil => simp [List.modify]
  | cons head rest inductionHypothesis => simpa using inductionHypothesis

theorem take_succ_append_cons {α : Type} (front : List α) (item : α) (back : List α) :
    (front ++ item :: back).take (front.length + 1) = front ++ [item] := by
  rw [List.take_length_add_append]
  rfl

theorem drop_succ_append_cons {α : Type} (front : List α) (item : α) (back : List α) :
    (front ++ item :: back).drop (front.length + 1) = back := by
  rw [List.drop_length_add_append]
  rfl

namespace LineTable

variable {κ : Type} {table : LineTable κ} {upper lower : List (Line κ)} {line : Line κ}

theorem get_append_cons (shape : table.lines = upper ++ line :: lower) :
    table.get upper.length = .ok line := by
  rw [get, get?, shape]
  simp

theorem update_append_cons (shape : table.lines = upper ++ line :: lower)
    (change : Line κ → Line κ) :
    (table.update upper.length change).lines = upper ++ change line :: lower := by
  rw [update, shape]
  exact modify_append_cons change upper line lower

theorem shiftFrom_append_cons (shape : table.lines = upper ++ line :: lower) (distance : Int) :
    (table.shiftFrom (upper.length + 1) distance).lines =
      upper ++ line :: lower.map (Line.shift distance) := by
  rw [shiftFrom, shape, take_succ_append_cons, drop_succ_append_cons]
  simp

theorem get_succ_append_cons {above : Line κ}
    (shape : table.lines = upper ++ above :: line :: lower) :
    table.get (upper.length + 1) = .ok line := by
  have found : table.get (upper ++ [above]).length = .ok line :=
    get_append_cons (shape.trans (List.append_cons _ _ _))
  rwa [List.length_append, List.length_singleton] at found

variable [Coordinate κ]

/-- Splitting leaves the lines above, cuts the line, and stamps the lines below
with the places after the new line. -/
theorem split_append_cons (shape : table.lines = upper ++ line :: lower) {offset : Nat}
    (inside : line.contains offset = true) (fits : line.stop + separatorLength ≤ Word.largest) :
    ∃ next, table.split upper.length offset = .ok (next, upper.length + 1) ∧
      next.lines = upper ++
        { line with stop := offset, indentEnd := min line.indentEnd offset } ::
        Line.bare (upper.length + 1) (offset + separatorLength) (line.stop + separatorLength)
          (table.layout.lineOrigin (upper.length + 1)) ::
        stamped table.layout (upper.length + 2) (lower.map (Line.shift separatorLength)) ∧
      next.layout = table.layout := by
  have below : offset ≤ line.stop := by
    simp only [Line.contains, Bool.and_eq_true, decide_eq_true_eq] at inside
    exact inside.2
  have start : Word.add offset separatorLength = .ok (offset + separatorLength) :=
    Word.add_of_le (by omega)
  have stop := Word.add_of_le fits
  refine ⟨{ table with lines := _ }, ?_, rfl, rfl⟩
  unfold split
  simp only [get_append_cons shape, bind, Except.bind, inside, Bool.true_eq_false, if_false, start,
    stop, shape, drop_succ_append_cons, List.take_left]
  rfl

/-- Folding gives the line above the rest of the span, and stamps the lines below
with the places from the folded line on. -/
theorem merge_append_cons {above : Line κ} (shape : table.lines = upper ++ above :: line :: lower)
    (room : separatorLength ≤ line.stop) :
    ∃ next, table.merge (upper.length + 1) = .ok (next, upper.length) ∧
      next.lines = upper ++ { above with stop := line.stop - separatorLength } ::
        stamped table.layout (upper.length + 1)
          (lower.map (Line.shift (-(separatorLength : Int)))) ∧
      next.layout = table.layout := by
  have rest : table.lines.drop (upper.length + 1 + 1) = lower := by
    have dropped := drop_succ_append_cons (upper ++ [above]) line lower
    rwa [← List.append_cons, ← shape, List.length_append, List.length_singleton] at dropped
  have stop := Word.sub_of_le room
  refine ⟨{ table with lines := _ }, ?_, rfl, rfl⟩
  unfold merge
  simp only [Nat.succ_ne_zero, if_false, get_succ_append_cons shape, Nat.add_sub_cancel,
    get_append_cons shape, bind, Except.bind, stop, rest]
  rw [shape, List.take_left]
  rfl

end LineTable

end EditorCore
