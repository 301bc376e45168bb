import EditorCore.Proofs.PlainText

/-!
Contract: the positions of a document.

Owns:
- the order of positions, and the nearest one of a set to either side of another;
- the positions that a document has, its last one, where they are in the text, and
  that motions that aim at one of them get there;
- the lengths of lines as an editor tells them.

Does not own: which motion leads to which position.
-/

namespace EditorCore

/-! ## Order -/

namespace Position

variable {left middle right : Position}

/-- A position comes before another in the document. -/
def Before (left right : Position) : Prop := left.compare right = .lt

theorem before_iff :
    left.Before right ↔
      left.line < right.line ∨ left.line = right.line ∧ left.column < right.column := by
  rw [Before, compare, Ordering.then_eq_lt, Nat.compare_eq_lt, Nat.compare_eq_eq,
    Nat.compare_eq_lt]

theorem not_before_self : ¬ left.Before left := by
  rw [before_iff]
  omega

theorem Before.trans (first : left.Before middle) (second : middle.Before right) :
    left.Before right := by
  rw [before_iff] at first second ⊢
  omega

/-- Positions are in one order. -/
theorem before_or_eq_or_before (left right : Position) :
    left.Before right ∨ left = right ∨ right.Before left := by
  rw [before_iff, before_iff, Position.mk.injEq]
  omega

/-- A position comes after another in the document. -/
def Behind (left right : Position) : Prop := right.Before left

instance : Std.Asymm Before where
  asymm _ _ first second := not_before_self (first.trans second)

instance : Std.Trichotomous Before where
  trichotomous left right notBefore notBehind := by
    rcases before_or_eq_or_before left right with before | same | behind
    · exact absurd before notBefore
    · exact same
    · exact absurd behind notBehind

instance : Std.Asymm Behind where
  asymm _ _ first second := not_before_self (first.trans second)

instance : Std.Trichotomous Behind where
  trichotomous left right notBehind notBefore :=
    Std.Trichotomous.trichotomous left right notBefore notBehind

/-- Of a set of positions, the first one ahead of another. -/
structure Nearest (stops : Position → Prop) (ahead : Position → Position → Prop)
    (here there : Position) : Prop where
  stop : stops there
  beyond : ahead here there
  first : ∀ other, stops other → ahead here other → other ≠ there → ahead there other

section Nearest

variable {stops : Position → Prop} {ahead : Position → Position → Prop}
  {here there other : Position}

/-- There is one nearest stop. -/
theorem Nearest.unique [Std.Asymm ahead] (nearest : Nearest stops ahead here there)
    (another : Nearest stops ahead here other) : other = there := by
  apply Decidable.byContradiction
  intro different
  have after := nearest.first other another.stop another.beyond different
  have before := another.first there nearest.stop nearest.beyond (Ne.symm different)
  exact Std.Asymm.asymm _ _ after before

/-- From a position of the set, the way back is to the same position. -/
theorem Nearest.back [Std.Asymm ahead] [Std.Trichotomous ahead]
    (nearest : Nearest stops ahead here there) (stop : stops here) :
    Nearest stops (fun left right => ahead right left) there here where
  stop
  beyond := nearest.beyond
  first := by
    intro other otherStop before different
    apply Classical.byContradiction
    intro notBefore
    have notThere : other ≠ there := by
      rintro rfl
      exact Std.Asymm.asymm _ _ before before
    have notBehind : ¬ ahead here other := fun behind =>
      Std.Asymm.asymm _ _ before (nearest.first other otherStop behind notThere)
    exact different (Std.Trichotomous.trichotomous other here notBefore notBehind)

/-- The nearest one back from there is where it was reached from. -/
theorem Nearest.returns [Std.Asymm ahead] [Std.Trichotomous ahead]
    (nearest : Nearest stops ahead here there) (stop : stops here)
    (back : Nearest stops (fun left right => ahead right left) there other) : other = here := by
  have asymm : Std.Asymm (fun left right => ahead right left) :=
    ⟨fun _ _ first second => Std.Asymm.asymm _ _ first second⟩
  exact (nearest.back stop).unique back

end Nearest

end Position

/-! ## Documents -/

/-- A position in some lines: one of them has the column. -/
def IsPlace (line? : Nat → Option (List Char)) (position : Position) : Prop :=
  ∃ line, line? position.line = some line ∧ position.column ≤ line.length

namespace Draft

variable {draft : Draft} {position : Position} {line : List Char}

def IsPlace (draft : Draft) (position : Position) : Prop :=
  EditorCore.IsPlace (fun row => draft.lines[row]?) position

/-- Where the document ends. -/
def last (draft : Draft) : Position := draft.endOf (draft.lines.length - 1)

theorem isPlace_congr {other : Draft} (same : other.lines = draft.lines) :
    other.IsPlace = draft.IsPlace := by
  funext position
  rw [IsPlace, IsPlace, same]

theorem last_congr {other : Draft} (same : other.lines = draft.lines) :
    other.last = draft.last := by
  rw [last, last, endOf, endOf, lengthOf, lengthOf, same]

/-- The caret stands at a place. -/
theorem isPlace_position (draft : Draft) : draft.IsPlace draft.position := by
  have width := draft.length_current
  exact ⟨draft.current, draft.getElem?_lines_row, by simp only [position]; omega⟩

theorem isPlace_last (draft : Draft) : draft.IsPlace draft.last := by
  have inside := draft.row_lt_length_lines
  obtain ⟨line, found⟩ := draft.exists_line (draft.lines.length - 1) (by omega)
  exact ⟨line, found, Nat.le_of_eq (lengthOf_eq found)⟩

/-- The caret is at the end of the document exactly at the end of the last line. -/
theorem position_eq_last_iff :
    draft.position = draft.last ↔
      draft.row + 1 = draft.lines.length ∧ draft.column = draft.current.length := by
  have inside := draft.row_lt_length_lines
  rw [position, last, endOf, Position.mk.injEq]
  constructor
  · rintro ⟨row, column⟩
    rw [← row, lengthOf_eq draft.getElem?_lines_row] at column
    exact ⟨by omega, column⟩
  · rintro ⟨row, column⟩
    have last : draft.lines.length - 1 = draft.row := by omega
    rw [last, lengthOf_eq draft.getElem?_lines_row]
    exact ⟨rfl, column⟩

theorem position_eq_zero_iff :
    draft.position = Position.zero ↔ draft.row = 0 ∧ draft.column = 0 := by
  rw [position, Position.zero, Position.mk.injEq]

theorem not_before_zero (position : Position) : ¬ position.Before Position.zero := by
  rw [Position.before_iff]
  exact fun before => before.elim (Nat.not_lt_zero _) fun same => Nat.not_lt_zero _ same.2

theorem not_behind_last (draft : Draft) : ¬ draft.position.Behind draft.last := by
  have inside := draft.row_lt_length_lines
  have width := draft.length_current
  rw [Position.Behind, Position.before_iff]
  rintro (below | ⟨row, further⟩)
  · simp only [last, endOf, position] at below
    omega
  · simp only [last, endOf, position] at row further
    rw [row, lengthOf_eq draft.getElem?_lines_row] at further
    omega

theorem lines_goTo (found : draft.lines[position.line]? = some line) :
    (draft.goTo position).lines = draft.lines :=
  lines_seek found

theorem position_goTo (found : draft.lines[position.line]? = some line)
    (inside : position.column ≤ line.length) : (draft.goTo position).position = position := by
  rw [goTo, Draft.position, row_seek found, column_seek found, Nat.min_eq_left inside]

theorem goTo_goTo (found : draft.lines[position.line]? = some line) (next : Position) :
    (draft.goTo position).goTo next = draft.goTo next := by
  rw [goTo, seek, lines_goTo found]
  rfl

/-- Where a position is in the text. -/
def offsetOf (draft : Draft) (position : Position) : Nat :=
  draft.startOf position.line + position.column

theorem startOf_le (draft : Draft) {row later : Nat} (order : row ≤ later) :
    draft.startOf row ≤ draft.startOf later := by
  obtain ⟨more, rfl⟩ := Nat.exists_eq_add_of_le order
  rw [startOf, startOf, List.take_add, flow_true_append, List.length_append]
  exact Nat.le_add_right _ _

/-- Places lie in the text. -/
theorem offsetOf_le_length (found : draft.lines[position.line]? = some line)
    (inside : position.column ≤ line.length) : draft.offsetOf position ≤ draft.text.length := by
  have reach := (draft.goTo position).offset_le_stop
  have whole := (draft.goTo position).stop_le_length_text
  rw [goTo, offset_seek found inside] at reach
  rw [goTo, text_seek found] at whole
  exact Nat.le_trans reach whole

/-- The text goes on in the order of positions. -/
theorem offsetOf_lt {next : Position} (found : draft.lines[position.line]? = some line)
    (inside : position.column ≤ line.length) (before : position.Before next) :
    draft.offsetOf position < draft.offsetOf next := by
  rw [offsetOf, offsetOf]
  rcases Position.before_iff.mp before with below | ⟨row, further⟩
  · have separated := startOf_succ found
    have order : draft.startOf (position.line + 1) ≤ draft.startOf next.line :=
      draft.startOf_le below
    have some : 0 < separatorLength := by decide
    omega
  · rw [row]
    exact Nat.add_lt_add_left further _

end Draft

namespace Editor

variable {κ : Type}

/-- The length of a line. -/
def lineLength (editor : Editor κ) (row : Nat) : Nat := ((editor.lineChars? row).getD []).length

/-- A position that the document of an editor has. -/
def IsPlace (editor : Editor κ) (position : Position) : Prop :=
  EditorCore.IsPlace editor.lineChars? position

/-- Where the document ends. -/
def documentEnd (editor : Editor κ) : Position where
  line := editor.lines.size - 1
  column := editor.lineLength (editor.lines.size - 1)

variable [Coordinate κ] {editor : Editor κ} {draft : Draft}

theorem Shows.lineLength_eq (shows : editor.Shows draft) (row : Nat) :
    editor.lineLength row = draft.lengthOf row := by
  rw [lineLength, shows.reads.lines, Draft.lengthOf, List.getD_eq_getElem?_getD]
  rfl

theorem Shows.documentEnd_eq (shows : editor.Shows draft) :
    editor.documentEnd = draft.last := by
  rw [documentEnd, shows.lineLength_eq, shows.size]
  rfl

/-- The places of an editor are those of the draft that it shows. -/
theorem Shows.isPlace_eq (shows : editor.Shows draft) : editor.IsPlace = draft.IsPlace := by
  funext position
  rw [IsPlace, Draft.IsPlace]
  exact congrArg (fun line? => EditorCore.IsPlace line? position) (funext shows.reads.lines)

/-- A motion that aims at a place gets there and leaves the lines as they are. -/
theorem Shows.move_to (shows : editor.Shows draft) {motion : Motion} {there : Position}
    (place : draft.IsPlace there)
    (aims : draft.target editor.wordStep editor.cursor.desiredColumn motion = some there) :
    ∃ next, editor.move motion = .ok next ∧
      Settled editor next (motion.remembers draft.column editor.cursor.desiredColumn)
        (draft.goTo there) ∧
      (draft.goTo there).lines = draft.lines ∧ (draft.goTo there).position = there := by
  obtain ⟨line, found, inside⟩ := place
  have moves := shows.move motion
  rw [aims] at moves
  obtain ⟨next, moves, settled⟩ := moves
  exact ⟨next, moves, settled, Draft.lines_goTo found, Draft.position_goTo found inside⟩

end Editor

end EditorCore
