/-!
Contract: characters of a class in a text, told by their offsets.

Owns:
- whether a character of a class stands at an offset or before it;
- `LongestRun`, the stretches of a class that cannot be made longer, and that each
  start has one.

Does not own: which classes there are.
-/

namespace EditorCore

/-- There is a character at an offset, and one of some class. -/
def isAt (part : Char → Bool) (text : List Char) (offset : Nat) : Bool :=
  text[offset]?.any part

/-- There is a character before an offset, and one of some class. -/
def isBefore (part : Char → Bool) (text : List Char) : Nat → Bool
  | 0 => false
  | offset + 1 => isAt part text offset

/-- The characters from an offset up to another. -/
def stretch (text : List Char) (start stop : Nat) : List Char :=
  (text.take stop).drop start

/-- From an offset up to another all characters are of a class, and none of it
follows. -/
structure LongestRun (part : Char → Bool) (text : List Char) (start stop : Nat) : Prop where
  ordered : start ≤ stop
  inside : ∀ offset, start ≤ offset → offset < stop → isAt part text offset = true
  ends : isAt part text stop = false

section Runs

variable {part : Char → Bool} {prior rest : List Char} {char : Char} {start stop : Nat}

theorem isAt_append (place : Nat) :
    isAt part (prior ++ rest) (prior.length + place) = isAt part rest place := by
  rw [isAt, isAt, List.getElem?_append_right (Nat.le_add_right _ _), Nat.add_sub_cancel_left]

@[simp]
theorem isAt_length : isAt part (prior ++ char :: rest) prior.length = part char :=
  isAt_append 0

theorem isBefore_length (part : Char → Bool) (prior rest : List Char) :
    isBefore part (prior ++ rest) prior.length = prior.getLast?.any part := by
  rcases List.eq_nil_or_concat prior with rfl | ⟨front, last, rfl⟩
  · rfl
  · rw [List.concat_eq_append, List.length_append, List.length_singleton, isBefore,
      List.append_assoc, List.getLast?_append]
    exact isAt_length

theorem isBefore_append {place : Nat} (some : 0 < place) :
    isBefore part (prior ++ rest) (prior.length + place) = isBefore part rest place := by
  obtain ⟨place, rfl⟩ := Nat.exists_eq_add_of_lt some
  rw [Nat.zero_add, ← Nat.add_assoc, isBefore, isBefore, isAt_append]

/-- Read backwards, what stands before an offset stands at it. -/
theorem isAt_reverse (rest : List Char) {place : Nat} (inside : place < prior.length) :
    isAt part prior.reverse place = isBefore part (prior ++ rest) (prior.length - place) := by
  obtain ⟨offset, before⟩ := Nat.exists_eq_add_of_lt inside
  have last : prior.length - place = offset + 1 := by omega
  have mirror : prior.length - 1 - place = offset := by omega
  rw [last, isBefore, isAt, isAt, List.getElem?_reverse inside, mirror,
    List.getElem?_append_left (by omega)]

theorem isBefore_reverse (rest : List Char) {place : Nat} (some : 0 < place)
    (inside : place ≤ prior.length) :
    isBefore part prior.reverse place = isAt part (prior ++ rest) (prior.length - place) := by
  obtain ⟨place, rfl⟩ := Nat.exists_eq_add_of_lt some
  rw [Nat.zero_add] at inside ⊢
  rw [isBefore, isAt_reverse rest (by omega)]
  have next : prior.length - place = prior.length - (place + 1) + 1 := by omega
  rw [next, isBefore]

theorem lt_of_isAt {text : List Char} {offset : Nat} (found : isAt part text offset = true) :
    offset < text.length := by
  apply Nat.lt_of_not_le
  intro past
  rw [isAt, List.getElem?_eq_none past] at found
  exact absurd found Bool.false_ne_true

theorem isAt_eq_false_of_not {text : List Char} {offset : Nat}
    (other : isAt (fun char => !part char) text offset = true) : isAt part text offset = false := by
  rw [isAt] at other ⊢
  cases found : text[offset]? with
  | none => rfl
  | some char =>
      rw [found, Option.any_some, Bool.not_eq_true'] at other
      exact other

theorem isAt_of_not_eq_false {text : List Char} {offset : Nat}
    (inside : offset < text.length) (other : isAt (fun char => !part char) text offset = false) :
    isAt part text offset = true := by
  rw [isAt, List.getElem?_eq_getElem inside] at other ⊢
  rw [Option.any_some, Bool.not_eq_false'] at other
  exact other

theorem getElem?_append_length : (prior ++ char :: rest)[prior.length]? = some char := by
  rw [List.getElem?_append_right (Nat.le_refl _), Nat.sub_self, List.getElem?_cons_zero]

theorem getElem?_append_succ : (prior ++ char :: rest)[prior.length + 1]? = rest.head? := by
  rw [List.getElem?_append_right (Nat.le_add_right _ _), Nat.add_sub_cancel_left,
    List.getElem?_cons_succ, List.head?_eq_getElem?]

theorem stretch_cons (prior rest : List Char) (char : Char) (more : Nat) :
    stretch (prior ++ char :: rest) prior.length (prior.length + 1 + more) =
      char :: rest.take more := by
  rw [stretch, Nat.add_assoc, List.take_length_add_append, List.drop_left, Nat.add_comm 1 more,
    List.take_succ_cons]

theorem LongestRun.stop_le {other : Nat} (run : LongestRun part rest start stop)
    (long : LongestRun part rest start other) : stop ≤ other := by
  apply Nat.le_of_not_lt
  intro past
  exact absurd (run.inside other long.ordered past) (by simp [long.ends])

theorem longestRun_takeWhile (part : Char → Bool) (prior rest : List Char) :
    LongestRun part (prior ++ rest) prior.length
      (prior.length + (rest.takeWhile part).length) where
  ordered := Nat.le_add_right _ _
  inside := by
    intro offset after before
    obtain ⟨place, rfl⟩ := Nat.exists_eq_add_of_le after
    have inRun : place < (rest.takeWhile part).length := Nat.lt_of_add_lt_add_left before
    have member := List.all_eq_true.mp List.all_takeWhile _ (List.getElem_mem inRun)
    rw [isAt_append, isAt, ← List.takeWhile_append_dropWhile (p := part) (l := rest),
      List.getElem?_append_left inRun, List.getElem?_eq_getElem inRun]
    exact member
  ends := by
    have next := List.head?_dropWhile_not part rest
    have found : (rest.takeWhile part ++ rest.dropWhile part)[(rest.takeWhile part).length]? =
        (rest.dropWhile part).head? := by
      rw [List.getElem?_append_right (Nat.le_refl _), Nat.sub_self, List.head?_eq_getElem?]
    rw [List.takeWhile_append_dropWhile] at found
    rw [isAt_append, isAt, found]
    cases head : (rest.dropWhile part).head? with
    | none => rfl
    | some char =>
        rw [head] at next
        exact next

theorem longestRun_iff :
    LongestRun part (prior ++ rest) prior.length stop ↔
      stop = prior.length + (rest.takeWhile part).length := by
  have run := longestRun_takeWhile part prior rest
  constructor
  · intro other
    exact Nat.le_antisymm (other.stop_le run) (run.stop_le other)
  · rintro rfl
    exact run

theorem longestRun_succ_iff :
    LongestRun part (prior ++ char :: rest) (prior.length + 1) stop ↔
      stop = prior.length + 1 + (rest.takeWhile part).length := by
  have around : prior ++ char :: rest = prior ++ [char] ++ rest := List.append_cons ..
  have length : (prior ++ [char]).length = prior.length + 1 := List.length_append
  rw [around, ← length, longestRun_iff]

end Runs

end EditorCore
