import EditorCore.Buffer

/-!
Contract: a buffer is a plain list of characters with a bound on its length.

Owns:
- `BufferCall`, the calls of a buffer as data, with what they answer, and runs of them;
- `BufferCall.perform`, what a call does to a plain list and answers about it, counting
  without any limit;
- that a run of a buffer is the run of its list wherever the lengths that calls ask for are
  words, and that it ends at the first one that is not;
- which calls can ask for such a length at all.

Does not own: where an editor inserts and removes.
-/

namespace EditorCore

/-! ## Calls -/

/-- A call of a buffer. -/
inductive BufferCall where
  | insertAt (offset : Nat) (char : Char)
  | insertSlice (offset : Nat) (run : List Char)
  | deleteAt (offset : Nat)
  | removeRange (start stop : Nat)
  | slice (start stop : Nat)
  | charAt (offset : Nat)
  | ensureRoom (additional : Nat)
  | clear
deriving DecidableEq, Repr

/-- What a call of a buffer reports. -/
inductive BufferAnswer where
  /-- Whether there was room. -/
  | admitted (result : Except EditError Unit)
  | char (found : Option Char)
  | chars (run : List Char)
  | done
deriving DecidableEq

namespace Buffer

/-- What a growing call leaves and answers.  A refused one leaves the buffer as it is. -/
def admission (buffer : Buffer) : Except EditError Buffer → Buffer × BufferAnswer
  | .error refusal => (buffer, .admitted (.error refusal))
  | .ok next => (next, .admitted (.ok ()))

def step (buffer : Buffer) : BufferCall → Checked (Buffer × BufferAnswer)
  | .insertAt offset char => (buffer.insert offset [char]).map buffer.admission
  | .insertSlice offset run => (buffer.insert offset run).map buffer.admission
  | .deleteAt offset => .ok (buffer.removeBefore offset, .char (buffer.charBefore offset))
  | .removeRange start stop => .ok (buffer.removeRange start stop, .done)
  | .slice start stop => .ok (buffer, .chars (buffer.slice start stop))
  | .charAt offset => .ok (buffer, .char (buffer.charAt offset))
  | .ensureRoom additional =>
      ((buffer.ensureRoom additional).map (Except.map fun _ => buffer)).map buffer.admission
  | .clear => .ok (buffer.clear, .done)

/-- Calls one after the other, with all their answers. -/
def run (buffer : Buffer) : List BufferCall → Checked (Buffer × List BufferAnswer)
  | [] => return (buffer, [])
  | call :: later => do
      let (next, answer) ← buffer.step call
      let (last, answers) ← next.run later
      return (last, answer :: answers)

end Buffer

/-! ## The same calls on a plain list -/

namespace BufferCall

/-- A text grows if it stays within its capacity.  Otherwise it stays as it is, and the
refusal names the length that it would need. -/
def grant (capacity : Nat) (text : List Char) (additional : Nat) (grown : List Char) :
    List Char × BufferAnswer :=
  if text.length + additional ≤ capacity then (grown, .admitted (.ok ()))
  else (text, .admitted (.error (.capacityExceeded (text.length + additional) capacity)))

/-- What a call makes of a text, and what it answers.  Ranges are clamped to the text. -/
def perform (capacity : Nat) (text : List Char) : BufferCall → List Char × BufferAnswer
  | insertAt offset char =>
      grant capacity text 1 (text.take offset ++ [char] ++ text.drop offset)
  | insertSlice offset run =>
      grant capacity text run.length (text.take offset ++ run ++ text.drop offset)
  | deleteAt offset =>
      if 0 < offset ∧ offset ≤ text.length then
        (text.eraseIdx (offset - 1), .char text[offset - 1]?)
      else (text, .char none)
  | removeRange start stop =>
      let first := min start text.length
      let last := min stop text.length
      (if first < last then text.take first ++ text.drop last else text, .done)
  | slice start stop =>
      let first := min start text.length
      let last := min stop text.length
      (text, .chars ((text.take last).drop first))
  | charAt offset => (text, .char text[offset]?)
  | ensureRoom additional => grant capacity text additional text
  | clear => ([], .done)

def performAll (capacity : Nat) (text : List Char) :
    List BufferCall → List Char × List BufferAnswer
  | [] => (text, [])
  | call :: later =>
      let here := call.perform capacity text
      let rest := performAll capacity here.1 later
      (rest.1, here.2 :: rest.2)

/-- Each of the calls meets a condition on the text that it finds. -/
def Throughout (capacity : Nat) (condition : List Char → BufferCall → Prop)
    (text : List Char) : List BufferCall → Prop
  | [] => True
  | call :: later =>
      condition text call ∧ Throughout capacity condition (call.perform capacity text).1 later

/-- An insertion goes to an offset of the text. -/
def Inside (text : List Char) : BufferCall → Prop
  | insertAt offset _ => offset ≤ text.length
  | insertSlice offset _ => offset ≤ text.length
  | _ => True

/-- How many more characters a call asks room for. -/
def additional : BufferCall → Nat
  | insertAt _ _ => 1
  | insertSlice _ run => run.length
  | ensureRoom additional => additional
  | _ => 0

/-- The characters that a call puts in. -/
def inserts : BufferCall → List Char
  | insertAt _ char => [char]
  | insertSlice _ run => run
  | _ => []

/-- The length that a call asks for is a word. -/
def Counted (text : List Char) (call : BufferCall) : Prop :=
  text.length + call.additional ≤ Word.largest

instance (text : List Char) (call : BufferCall) : Decidable (call.Counted text) :=
  inferInstanceAs (Decidable (_ ≤ _))

instance (text : List Char) : (call : BufferCall) → Decidable (call.Inside text)
  | insertAt offset _ | insertSlice offset _ => inferInstanceAs (Decidable (offset ≤ text.length))
  | deleteAt _ | removeRange _ _ | slice _ _ | charAt _ | ensureRoom _ | clear => isTrue trivial

instance decidableThroughout (capacity : Nat) (condition : List Char → BufferCall → Prop)
    [∀ text call, Decidable (condition text call)] (text : List Char) :
    (calls : List BufferCall) → Decidable (Throughout capacity condition text calls)
  | [] => isTrue trivial
  | call :: later =>
      have := decidableThroughout capacity condition (call.perform capacity text).1 later
      inferInstanceAs (Decidable (_ ∧ _))

variable {capacity : Nat} {text : List Char}

/-- What is granted fits the capacity. -/
theorem length_grant_le {additional : Nat} {grown : List Char} (bounded : text.length ≤ capacity)
    (grows : grown.length ≤ text.length + additional) :
    (grant capacity text additional grown).1.length ≤ capacity := by
  unfold grant
  split
  · rename_i fits
    exact Nat.le_trans grows fits
  · exact bounded

theorem length_spliced (text run : List Char) (offset : Nat) :
    (text.take offset ++ run ++ text.drop offset).length = text.length + run.length := by
  simp only [List.length_append, List.length_take, List.length_drop]
  omega

/-- No call takes a text past its capacity. -/
theorem length_perform_le (bounded : text.length ≤ capacity) (call : BufferCall) :
    (call.perform capacity text).1.length ≤ capacity := by
  cases call with
  | insertAt offset char =>
      exact length_grant_le bounded (Nat.le_of_eq (length_spliced text [char] offset))
  | insertSlice offset run =>
      exact length_grant_le bounded (Nat.le_of_eq (length_spliced text run offset))
  | ensureRoom additional => exact length_grant_le bounded (Nat.le_add_right _ _)
  | deleteAt offset =>
      rw [perform]
      split
      · exact Nat.le_trans (List.length_eraseIdx_le text _) bounded
      · exact bounded
  | removeRange start stop =>
      rw [perform]
      split
      · simp only [List.length_append, List.length_take, List.length_drop]
        omega
      · exact bounded
  | slice | charAt => exact bounded
  | clear => exact Nat.zero_le _

/-- The run invariant: the text never outgrows the capacity. -/
theorem length_performAll_le (bounded : text.length ≤ capacity) (calls : List BufferCall) :
    (performAll capacity text calls).1.length ≤ capacity := by
  induction calls generalizing text with
  | nil => exact bounded
  | cons call later inductionHypothesis =>
      exact inductionHypothesis (length_perform_le bounded call)

/-- Only a demand for room, which takes any number, can ask for a length that is no word: a
text in memory and one put into it are not long enough. -/
theorem exists_ensureRoom_of_not_counted {call : BufferCall} (held : text.length ≤ Word.longestText)
    (short : call.inserts.length ≤ Word.longestText) (passes : ¬ call.Counted text) :
    ∃ additional, call = .ensureRoom additional := by
  have twice : Word.longestText + Word.longestText ≤ Word.largest := by decide
  cases call with
  | ensureRoom additional => exact ⟨additional, rfl⟩
  | _ =>
      simp only [inserts, List.length_singleton, List.length_nil] at short
      refine absurd ?_ passes
      simp only [Counted, additional]
      omega

/-- A range that is reversed, or that begins at the end or past it, holds nothing. -/
theorem performAll_idle {start stop : Nat} (nothing : stop ≤ start ∨ text.length ≤ start) :
    performAll capacity text [.removeRange start stop, .slice start stop] =
      (text, [.done, .chars []]) := by
  have reversed : min stop text.length ≤ min start text.length := by omega
  have kept : perform capacity text (.removeRange start stop) = (text, .done) := by
    rw [perform, if_neg (Nat.not_lt.mpr reversed)]
  have none : perform capacity text (.slice start stop) = (text, .chars []) := by
    rw [perform, List.drop_eq_nil_of_le (Nat.le_trans (List.length_take_le _ _) reversed)]
  rw [performAll, performAll, performAll, kept, none]

/-- Removing a run from where it was put in gives the text back. -/
theorem performAll_undone {offset : Nat} {run : List Char} (inside : offset ≤ text.length)
    (fits : text.length + run.length ≤ capacity) :
    performAll capacity text [.insertSlice offset run, .removeRange offset (offset + run.length)] =
      (text, [.admitted (.ok ()), .done]) := by
  have grown : perform capacity text (.insertSlice offset run) =
      (text.take offset ++ run ++ text.drop offset, .admitted (.ok ())) := if_pos fits
  have first : (text.take offset ++ run).length = offset + run.length := by
    rw [List.length_append, List.length_take_of_le inside]
  have removed : perform capacity (text.take offset ++ run ++ text.drop offset)
      (.removeRange offset (offset + run.length)) = (text, .done) := by
    have reach := length_spliced text run offset
    rw [perform, Nat.min_eq_left (by omega), Nat.min_eq_left (by omega)]
    split
    · rw [List.drop_left' first, List.append_assoc,
        List.take_left' (List.length_take_of_le inside), List.take_append_drop]
    · rename_i empty
      obtain rfl : run = [] := List.eq_nil_of_length_eq_zero (by omega)
      rw [List.append_nil, List.take_append_drop]
  rw [performAll, performAll, performAll, grown, removed]

end BufferCall

/-! ## The buffer of a text -/

namespace Buffer

open BufferCall

/-- The buffer that stands for a text. -/
def ofText (capacity : Nat) (text : List Char) : Buffer := { chars := text.toArray, capacity }

variable {capacity : Nat} {text : List Char}

@[simp]
theorem toList_ofText : (ofText capacity text).toList = text := rfl

@[simp]
theorem length_ofText : (ofText capacity text).length = text.length := rfl

/-- A buffer is its text and its capacity. -/
theorem eq_ofText {buffer : Buffer} (same : buffer.toList = text)
    (bound : buffer.capacity = capacity) : buffer = ofText capacity text := by
  subst same bound
  rfl

theorem spliced_ofText (offset : Nat) (run : List Char) :
    (ofText capacity text).spliced offset run =
      ofText capacity (text.take offset ++ run ++ text.drop offset) :=
  eq_ofText (toList_spliced _ _ _) rfl

theorem removeRange_ofText (start stop : Nat) :
    (ofText capacity text).removeRange start stop =
      ofText capacity (perform capacity text (.removeRange start stop)).1 := by
  apply eq_ofText _ (capacity_removeRange _ _ _)
  rw [toList_removeRange, toList_ofText, perform]
  simp only [← List.take_eq_take_min, ← List.drop_eq_drop_min]
  by_cases some : min start text.length < min stop text.length
  · rw [if_pos some, if_pos (by omega)]
  · rw [if_neg some]
    split
    · -- The range is not reversed, so it begins at the end of the text or past it.
      rw [List.take_of_length_le (by omega), List.drop_of_length_le (by omega), List.append_nil]
    · rfl

theorem slice_ofText (start stop : Nat) :
    (ofText capacity text).slice start stop =
      (text.take (min stop text.length)).drop (min start text.length) := by
  rw [slice_eq, toList_ofText, ← List.take_eq_take_min, List.drop_eq_drop_iff, List.length_take]
  omega

theorem removeBefore_ofText (offset : Nat) :
    (ofText capacity text).removeBefore offset =
      ofText capacity (if offset = 0 then text else text.eraseIdx (offset - 1)) := by
  apply eq_ofText (toList_removeBefore _ _)
  unfold removeBefore
  split <;> rfl

theorem charBefore_ofText (offset : Nat) :
    (ofText capacity text).charBefore offset =
      if offset = 0 then none else text[offset - 1]? := by
  rw [charBefore]
  simp [ofText]

/-- Deleting removes from the list the character before the offset. -/
theorem deleteAt_ofText (offset : Nat) :
    (ofText capacity text).step (.deleteAt offset) =
      .ok (ofText capacity (perform capacity text (.deleteAt offset)).1,
        (perform capacity text (.deleteAt offset)).2) := by
  rw [step, removeBefore_ofText, charBefore_ofText, perform]
  by_cases start : offset = 0
  · rw [if_pos start, if_pos start, if_neg (by omega)]
  · rw [if_neg start, if_neg start]
    split
    · rfl
    · rw [List.eraseIdx_of_length_le (by omega), List.getElem?_eq_none (by omega)]

section

variable (word : capacity ≤ Word.largest) (bounded : text.length ≤ capacity)

include word

/-- A growing call that is let in by its length, and refused with that length wherever it is a
word, answers as on the list. -/
theorem admission_ofText {outcome : Checked (Except EditError Buffer)} {additional : Nat}
    {grown : List Char}
    (fitting : text.length + additional ≤ capacity → outcome = .ok (.ok (ofText capacity grown)))
    (full : capacity < text.length + additional → outcome =
      if text.length + additional ≤ Word.largest then
        .ok (.error (.capacityExceeded (text.length + additional) capacity))
      else .error .countTooLarge) :
    outcome.map (ofText capacity text).admission =
      if text.length + additional ≤ Word.largest then
        .ok (ofText capacity (grant capacity text additional grown).1,
          (grant capacity text additional grown).2)
      else .error .countTooLarge := by
  unfold grant
  by_cases fits : text.length + additional ≤ capacity
  · rw [fitting fits, if_pos (Nat.le_trans fits word), if_pos fits]
    rfl
  · rw [full (Nat.lt_of_not_le fits), if_neg fits]
    split <;> rfl

include bounded

/-- An insertion is granted or refused as on the list, as long as words count. -/
theorem insert_ofText {offset : Nat} (inside : offset ≤ text.length) (run : List Char) :
    ((ofText capacity text).insert offset run).map (ofText capacity text).admission =
      if text.length + run.length ≤ Word.largest then
        let result := grant capacity text run.length (text.take offset ++ run ++ text.drop offset)
        .ok (ofText capacity result.1, result.2)
      else .error .countTooLarge := by
  apply admission_ofText word
  · intro fits
    rw [@insert_of_fits (ofText capacity text) offset run fits inside, spliced_ofText]
  · exact @insert_of_full (ofText capacity text) offset run bounded

theorem ensureRoom_ofText (additional : Nat) :
    (ofText capacity text).step (.ensureRoom additional) =
      if text.length + additional ≤ Word.largest then
        let result := grant capacity text additional text
        .ok (ofText capacity result.1, result.2)
      else .error .countTooLarge := by
  apply admission_ofText word
  · intro fits
    rw [@ensureRoom_of_fits (ofText capacity text) additional fits]
    rfl
  · intro full
    rw [@ensureRoom_of_full (ofText capacity text) additional bounded full, length_ofText]
    split <;> rfl

/-- A step of a buffer is the step of its text, and ends only where a length is no word. -/
theorem step_ofText {call : BufferCall} (inside : call.Inside text) :
    (ofText capacity text).step call =
      if call.Counted text then
        .ok (ofText capacity (call.perform capacity text).1, (call.perform capacity text).2)
      else .error .countTooLarge := by
  have counted {other : BufferCall} (asks : other.additional = 0) : other.Counted text := by
    rw [Counted, asks]
    exact Nat.le_trans bounded word
  cases call with
  | insertAt offset char => exact insert_ofText word bounded inside [char]
  | insertSlice offset run => exact insert_ofText word bounded inside run
  | ensureRoom additional => exact ensureRoom_ofText word bounded additional
  | deleteAt offset =>
      rw [if_pos (counted rfl)]
      exact deleteAt_ofText offset
  | removeRange start stop =>
      rw [if_pos (counted rfl), step, removeRange_ofText]
      rfl
  | slice start stop =>
      rw [if_pos (counted rfl), step, slice_ofText]
      rfl
  | charAt offset =>
      rw [if_pos (counted rfl), step, charAt_eq]
      rfl
  | clear =>
      rw [if_pos (counted rfl)]
      rfl

/-- A run of a buffer is the run of its text, and ends at the first length that is no word. -/
theorem run_ofText {calls : List BufferCall} (inside : Throughout capacity Inside text calls) :
    (ofText capacity text).run calls =
      if Throughout capacity Counted text calls then
        .ok (ofText capacity (performAll capacity text calls).1, (performAll capacity text calls).2)
      else .error .countTooLarge := by
  induction calls generalizing text with
  | nil => exact (if_pos trivial).symm
  | cons call later inductionHypothesis =>
      have rest := inductionHypothesis (length_perform_le bounded call) inside.2
      rw [run, step_ofText word bounded inside.1]
      by_cases counted : call.Counted text
      · rw [if_pos counted]
        change ((ofText capacity (call.perform capacity text).1).run later >>= _) = _
        rw [rest]
        by_cases more : Throughout capacity Counted (call.perform capacity text).1 later
        · rw [if_pos more, if_pos ⟨counted, more⟩]
          rfl
        · rw [if_neg more, if_neg (fun all => more all.2)]
          rfl
      · rw [if_neg counted, if_neg (fun all => counted all.1)]
        rfl

/-- A run whose counts stay inside the words is one on the list. -/
theorem run_of_counted {calls : List BufferCall} (inside : Throughout capacity Inside text calls)
    (counted : Throughout capacity Counted text calls) :
    (ofText capacity text).run calls =
      .ok (ofText capacity (performAll capacity text calls).1,
        (performAll capacity text calls).2) := by
  rw [run_ofText word bounded inside, if_pos counted]

end

/-! ## Runs from the start -/

/-- A buffer stands for a text within a capacity.  What lies outside the text is not touched,
and a run that fits can be taken out again where it was put in. -/
structure Carries (buffer : Buffer) (capacity : Nat) (text : List Char) : Prop where
  holds : buffer.toList = text
  bound : buffer.capacity = capacity
  bounded : buffer.length ≤ capacity
  idle : ∀ start stop, stop ≤ start ∨ buffer.length ≤ start →
    buffer.run [.removeRange start stop, .slice start stop] = .ok (buffer, [.done, .chars []])
  undone : ∀ offset run, offset ≤ buffer.length → buffer.length + run.length ≤ capacity →
    offset + run.length ≤ Word.largest ∧
      buffer.run [.insertSlice offset run, .removeRange offset (offset + run.length)] =
        .ok (buffer, [.admitted (.ok ()), .done])

/-- A buffer carries out every single call as the list does. -/
theorem carries_ofText (word : capacity ≤ Word.largest) (bounded : text.length ≤ capacity) :
    (ofText capacity text).Carries capacity text where
  holds := rfl
  bound := rfl
  bounded := bounded
  idle := by
    intro start stop nothing
    rw [length_ofText] at nothing
    have anywhere : Throughout capacity Inside text [.removeRange start stop, .slice start stop] :=
      ⟨trivial, trivial, trivial⟩
    have counted : Throughout capacity Counted text [.removeRange start stop, .slice start stop] :=
      ⟨Nat.le_trans bounded word, Nat.le_trans (length_perform_le bounded _) word, trivial⟩
    rw [run_of_counted word bounded anywhere counted, performAll_idle nothing]
  undone := by
    intro offset run inside fits
    rw [length_ofText] at inside fits
    have within : Throughout capacity Inside text
        [.insertSlice offset run, .removeRange offset (offset + run.length)] :=
      ⟨inside, trivial, trivial⟩
    have counted : Throughout capacity Counted text
        [.insertSlice offset run, .removeRange offset (offset + run.length)] :=
      ⟨Nat.le_trans fits word, Nat.le_trans (length_perform_le bounded _) word, trivial⟩
    rw [run_of_counted word bounded within counted, performAll_undone inside fits]
    exact ⟨Nat.le_trans (Nat.add_le_add_right inside _) (Nat.le_trans fits word), rfl⟩

/-- A buffer is a plain list with a bound.  From an empty one on, any calls whose insertions go
to offsets of the text do and answer what they do and answer on a list, where a text is let in
exactly if the sum of the lengths, over all natural numbers, keeps to the capacity.  Only where
that sum is no word the run ends instead, and with texts that memory can hold, only a demand for
room can have such a sum. -/
theorem runs_as_bounded_list {capacity : Nat} (word : capacity ≤ Word.largest)
    {calls : List BufferCall} (inside : Throughout capacity Inside [] calls) :
    (Throughout capacity Counted [] calls →
      ∃ buffer, (empty capacity).run calls = .ok (buffer, (performAll capacity [] calls).2) ∧
        buffer.Carries capacity (performAll capacity [] calls).1) ∧
    (¬ Throughout capacity Counted [] calls →
      (empty capacity).run calls = .error .countTooLarge) ∧
    ∀ (text : List Char) (call : BufferCall),
      text.length ≤ Word.longestText → call.inserts.length ≤ Word.longestText →
      ¬ call.Counted text → ∃ additional, call = .ensureRoom additional := by
  have start : ([] : List Char).length ≤ capacity := Nat.zero_le _
  refine ⟨?_, ?_, fun text call => exists_ensureRoom_of_not_counted⟩
  · intro counted
    exact ⟨_, run_of_counted word start inside counted,
      carries_ofText word (length_performAll_le start calls)⟩
  · intro passes
    exact (run_ofText word start inside).trans (if_neg passes)

/-- Calls of every kind, a refused insertion, a reversed range and offsets past the end among
them. -/
def mixedCalls : List BufferCall :=
  [.insertSlice 0 ['a', 'b', 'c'], .insertAt 1 'x', .insertSlice 2 ['y', 'z'], .deleteAt 9,
    .deleteAt 4, .removeRange 2 1, .slice 1 9, .charAt 7, .ensureRoom 2, .removeRange 1 9, .clear]

theorem runs_as_bounded_list_mixed :
    Throughout 4 Inside [] mixedCalls ∧ Throughout 4 Counted [] mixedCalls ∧
      ∃ buffer, (empty 4).run mixedCalls = .ok (buffer, [.admitted (.ok ()), .admitted (.ok ()),
        .admitted (.error (.capacityExceeded 6 4)), .char none, .char (some 'c'), .done,
        .chars ['x', 'b'], .char none, .admitted (.error (.capacityExceeded 5 4)), .done, .done]) ∧
        buffer.Carries 4 [] := by
  have inside : Throughout 4 Inside [] mixedCalls := by decide
  have counted : Throughout 4 Counted [] mixedCalls := by decide
  obtain ⟨buffer, runs, carries⟩ := (runs_as_bounded_list (by decide) inside).1 counted
  exact ⟨inside, counted, buffer, runs, carries⟩

/-- With one character in the buffer, room for as many more as a word counts is not refused,
although there is none: the run ends. -/
theorem ensureRoom_past_words :
    Throughout 8 Inside [] [.insertAt 0 'a', .ensureRoom Word.largest] ∧
      performAll 8 [] [.insertAt 0 'a', .ensureRoom Word.largest] =
        (['a'], [.admitted (.ok ()), .admitted (.error (.capacityExceeded (1 + Word.largest) 8))]) ∧
      (empty 8).run [.insertAt 0 'a', .ensureRoom Word.largest] = .error .countTooLarge := by
  decide

end Buffer

end EditorCore
