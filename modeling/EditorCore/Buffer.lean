import EditorCore.Error
import EditorCore.Fault

/-!
Contract: the characters of one document, bounded by a capacity.

Owns:
- `Buffer`, the characters and the most that may be held;
- growing operations, each of which checks the room before anything else;
- removing and reading, where every range is clamped to the text;
- when a growing operation is refused, and what the refusal names;
- `toList`, the text that a buffer stands for, and one equation for what each
  operation does to it.

Does not own: lines.  Breaks are characters like any other here.
-/

namespace EditorCore

/-- The characters of a document. -/
structure Buffer where
  chars : Array Char
  /-- The most characters that the document may hold. -/
  capacity : Nat
deriving DecidableEq, Repr

namespace Buffer

def empty (capacity : Nat) : Buffer := { chars := #[], capacity }

/-- The text that a buffer stands for. -/
def toList (buffer : Buffer) : List Char := buffer.chars.toList

def length (buffer : Buffer) : Nat := buffer.chars.size

def remaining (buffer : Buffer) : Nat := buffer.capacity - buffer.length

/-! ## Growing -/

/-- Refuse unless so many more characters fit.  The refusal names the length
that would be needed, and that length has to be a word. -/
def ensureRoom (buffer : Buffer) (additional : Nat) : Checked (Except EditError Unit) :=
  if additional ≤ buffer.remaining then .ok (.ok ())
  else do
    let required ← Word.add buffer.length additional
    return .error (.capacityExceeded required buffer.capacity)

/-- The buffer with a run at an offset, whatever the capacity.  At the end, where
most runs go, nothing has to be moved. -/
def spliced (buffer : Buffer) (offset : Nat) (run : List Char) : Buffer :=
  { buffer with chars :=
      if buffer.length ≤ offset then buffer.chars ++ run
      else buffer.chars.take offset ++ run ++ buffer.chars.drop offset }

/-- Put a run of characters at an offset.  A run that does not fit is refused
before the offset is looked at. -/
def insert (buffer : Buffer) (offset : Nat) (run : List Char) :
    Checked (Except EditError Buffer) := do
  match ← buffer.ensureRoom run.length with
  | .error refusal => return .error refusal
  | .ok () =>
      if offset ≤ buffer.length then return .ok (buffer.spliced offset run)
      else throw .offsetPastEnd

/-! ## Shrinking -/

/-- Remove a range, clamped to the text.  A reversed range removes nothing. -/
def removeRange (buffer : Buffer) (start stop : Nat) : Buffer :=
  if start < stop then
    { buffer with chars := buffer.chars.take start ++ buffer.chars.drop stop }
  else buffer

def charBefore (buffer : Buffer) (offset : Nat) : Option Char :=
  if offset = 0 then none else buffer.chars[offset - 1]?

/-- Remove the character before an offset.  At the start, and past the end,
nothing is removed. -/
def removeBefore (buffer : Buffer) (offset : Nat) : Buffer :=
  if offset = 0 then buffer
  else { buffer with chars := buffer.chars.eraseIdxIfInBounds (offset - 1) }

def clear (buffer : Buffer) : Buffer := empty buffer.capacity

/-! ## Reading -/

/-- The characters of a range, clamped to the text.  A reversed range has
none. -/
def slice (buffer : Buffer) (start stop : Nat) : List Char :=
  (buffer.chars.extract start stop).toList

def charAt (buffer : Buffer) (offset : Nat) : Option Char := buffer.chars[offset]?

def content (buffer : Buffer) : String := String.ofList buffer.toList

/-! ## When a growing operation is refused -/

theorem ensureRoom_of_fits {buffer : Buffer} {additional : Nat}
    (fits : buffer.length + additional ≤ buffer.capacity) :
    buffer.ensureRoom additional = .ok (.ok ()) := by
  unfold ensureRoom remaining
  exact if_pos (by omega)

/-- What does not fit is refused with the length that it needs, as long as that
length is a word. -/
theorem ensureRoom_of_full {buffer : Buffer} {additional : Nat}
    (bounded : buffer.length ≤ buffer.capacity)
    (full : buffer.capacity < buffer.length + additional) :
    buffer.ensureRoom additional =
      if buffer.length + additional ≤ Word.largest then
        .ok (.error (.capacityExceeded (buffer.length + additional) buffer.capacity))
      else .error .countTooLarge := by
  have tight : ¬ additional ≤ buffer.capacity - buffer.length := by omega
  unfold ensureRoom remaining
  rw [if_neg tight, Word.add]
  split <;> rfl

theorem insert_of_fits {buffer : Buffer} {offset : Nat} {run : List Char}
    (fits : buffer.length + run.length ≤ buffer.capacity) (inside : offset ≤ buffer.length) :
    buffer.insert offset run = .ok (.ok (buffer.spliced offset run)) := by
  unfold insert
  rw [ensureRoom_of_fits fits]
  exact if_pos inside

/-- A run that does not fit is refused wherever it was to go. -/
theorem insert_of_full {buffer : Buffer} {offset : Nat} {run : List Char}
    (bounded : buffer.length ≤ buffer.capacity)
    (full : buffer.capacity < buffer.length + run.length) :
    buffer.insert offset run =
      if buffer.length + run.length ≤ Word.largest then
        .ok (.error (.capacityExceeded (buffer.length + run.length) buffer.capacity))
      else .error .countTooLarge := by
  unfold insert
  rw [ensureRoom_of_full bounded full]
  split <;> rfl

/-! ## The text of each result -/

@[simp]
theorem toList_empty (capacity : Nat) : (empty capacity).toList = [] := rfl

@[simp]
theorem toList_clear (buffer : Buffer) : buffer.clear.toList = [] := rfl

theorem length_toList (buffer : Buffer) : buffer.toList.length = buffer.length := by
  simp [toList, length]

@[simp]
theorem toList_spliced (buffer : Buffer) (offset : Nat) (run : List Char) :
    (buffer.spliced offset run).toList =
      buffer.toList.take offset ++ run ++ buffer.toList.drop offset := by
  unfold spliced
  split
  · rename_i atEnd
    rw [← length_toList] at atEnd
    rw [List.take_of_length_le atEnd, List.drop_of_length_le atEnd]
    simp [toList]
  · simp [toList, List.take_of_length_le]

@[simp]
theorem toList_removeRange (buffer : Buffer) (start stop : Nat) :
    (buffer.removeRange start stop).toList =
      if start < stop then buffer.toList.take start ++ buffer.toList.drop stop
      else buffer.toList := by
  unfold removeRange
  split <;> simp [toList, List.take_of_length_le]

@[simp]
theorem capacity_removeRange (buffer : Buffer) (start stop : Nat) :
    (buffer.removeRange start stop).capacity = buffer.capacity := by
  unfold removeRange
  split <;> rfl

@[simp]
theorem toList_removeBefore (buffer : Buffer) (offset : Nat) :
    (buffer.removeBefore offset).toList =
      if offset = 0 then buffer.toList else buffer.toList.eraseIdx (offset - 1) := by
  unfold removeBefore
  split <;> simp [toList]

theorem slice_eq (buffer : Buffer) (start stop : Nat) :
    buffer.slice start stop = (buffer.toList.take stop).drop start := by
  simp [slice, toList, List.drop_take]

theorem charAt_eq (buffer : Buffer) (offset : Nat) :
    buffer.charAt offset = buffer.toList[offset]? := by
  simp [charAt, toList]

end Buffer

end EditorCore
