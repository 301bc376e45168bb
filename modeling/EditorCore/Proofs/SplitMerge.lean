import EditorCore.Proofs.LineTable
import EditorCore.Proofs.Safety

/-!
Contract: splitting a line of a table and folding it are inverse on spans.

Owns:
- `Fills`, lines that stand one after the other where a layout puts them, with its laws
  for concatenation, for shifts, and that the lines' own shapes determine such lines;
- `Line.shape`, what a line has wherever it stands;
- what splitting and folding make of a table that covers a text, and that each undoes
  the other on every line's index, span and place;
- where the shift of later lines stops at the largest word, and so is not undone.

Does not own: texts.  A table is taken by itself, as it covers any text of its length.
-/

namespace EditorCore

variable {κ : Type}

/-! ## Lines by themselves -/

/-- What a line has wherever it stands: its length, how far its indentation reaches, and its
tokens. -/
def Line.shape (line : Line κ) : Int × Int × List (Token κ) :=
  ((line.stop : Int) - line.start, (line.indentEnd : Int) - line.start, line.tokens)

variable [Coordinate κ]

/-- A line stands at an index and an offset, where the layout puts it, with its indentation
inside its span. -/
structure Line.Stands (layout : Layout κ) (index start : Nat) (line : Line κ) : Prop where
  place : line.index = index
  begins : line.start = start
  origin : line.displayOrigin = layout.lineOrigin index
  indented : line.start ≤ line.indentEnd
  ended : line.indentEnd ≤ line.stop

section Lines

variable {layout : Layout κ} {index start offset : Nat} {line other : Line κ}

theorem Line.stands_iff :
    line.Stands layout index start ↔
      (line.index = index ∧ line.start = start ∧ line.start ≤ line.indentEnd ∧
        line.indentEnd ≤ line.stop) ∧ line.displayOrigin = layout.lineOrigin line.index := by
  constructor
  · rintro ⟨rfl, begins, origin, indented, ended⟩
    exact ⟨⟨rfl, begins, indented, ended⟩, origin⟩
  · rintro ⟨⟨rfl, begins, indented, ended⟩, origin⟩
    exact ⟨rfl, begins, origin, indented, ended⟩

theorem Line.Stands.start_le_stop (stands : line.Stands layout index start) :
    start ≤ line.stop := by
  obtain ⟨-, begins, -, indented, ended⟩ := stands
  omega

/-- The place and the shape of a line determine it. -/
theorem Line.Stands.eq_of_shape (stands : line.Stands layout index start)
    (others : other.Stands layout index start) (same : line.shape = other.shape) :
    line = other := by
  obtain ⟨indices, starts, origins, indented, ended⟩ := stands
  obtain ⟨otherIndex, otherStart, otherOrigin, otherIndented, otherEnded⟩ := others
  injection same with lengths rest
  injection rest with indents tokens
  have stops : line.stop = other.stop := by omega
  have indentEnds : line.indentEnd = other.indentEnd := by omega
  cases line
  cases other
  simp only at indices starts origins otherIndex otherStart otherOrigin tokens stops indentEnds
  subst indices starts origins otherIndex otherStart otherOrigin tokens stops indentEnds
  rfl

/-- A line keeps its front part up to an offset on it. -/
theorem Line.Stands.kept (stands : line.Stands layout index start) (low : line.start ≤ offset) :
    ({ line with stop := offset, indentEnd := min line.indentEnd offset } : Line κ).Stands layout
      index start where
  place := stands.place
  begins := stands.begins
  origin := stands.origin
  indented := Nat.le_min.mpr ⟨stands.indented, low⟩
  ended := Nat.min_le_right _ _

theorem Line.Stands.extended (stands : line.Stands layout index start) {stop : Nat}
    (further : line.stop ≤ stop) :
    ({ line with stop } : Line κ).Stands layout index start where
  place := stands.place
  begins := stands.begins
  origin := stands.origin
  indented := stands.indented
  ended := Nat.le_trans stands.ended further

theorem Line.stands_bare (layout : Layout κ) (index : Nat) {start stop : Nat}
    (order : start ≤ stop) :
    (Line.bare index start stop (layout.lineOrigin index)).Stands layout index start where
  place := rfl
  begins := rfl
  origin := rfl
  indented := Nat.le_refl _
  ended := order

/-- A line that is moved without being cut off and stamped anew stands where it was moved. -/
theorem Line.Stands.moved (stands : line.Stands layout index start) {distance : Int}
    (moves : line.MovesBy distance) (first : Nat) {target : Nat}
    (reaches : (target : Int) = start + distance) :
    (LineTable.stamp layout first (line.shift distance)).Stands layout first target := by
  obtain ⟨starts, stops, indents⟩ := moves
  obtain ⟨-, begins, -, indented, ended⟩ := stands
  exact {
    place := rfl
    begins := by
      change (line.shift distance).start = target
      omega
    origin := rfl
    indented := by
      change (line.shift distance).start ≤ (line.shift distance).indentEnd
      omega
    ended := by
      change (line.shift distance).indentEnd ≤ (line.shift distance).stop
      omega }

/-- A line that moves exactly keeps its shape. -/
theorem Line.MovesBy.shape_stamp {distance : Int} (moves : line.MovesBy distance)
    (layout : Layout κ) (first : Nat) :
    (LineTable.stamp layout first (line.shift distance)).shape = line.shape := by
  obtain ⟨starts, stops, indents⟩ := moves
  have lengths : ((line.shift distance).stop : Int) - (line.shift distance).start =
      line.stop - line.start := by omega
  have indentations : ((line.shift distance).indentEnd : Int) - (line.shift distance).start =
      line.indentEnd - line.start := by omega
  exact Prod.ext lengths (Prod.ext indentations rfl)

end Lines

/-! ## Lines in a row -/

/-- Lines stand one after the other from an index and an offset on, each after the separator
of the one before, and a line after them would start at another offset. -/
def Fills (layout : Layout κ) : Nat → Nat → List (Line κ) → Nat → Prop
  | _, start, [], next => next = start
  | index, start, line :: later, next =>
      line.Stands layout index start ∧
        Fills layout (index + 1) (line.stop + separatorLength) later next

section Fills

variable {layout : Layout κ} {index start next : Nat} {lines later : List (Line κ)}

theorem Fills.start_le (fills : Fills layout index start lines next) : start ≤ next := by
  induction lines generalizing index start with
  | nil => exact Nat.le_of_eq (Eq.symm fills)
  | cons line rest inductionHypothesis =>
      obtain ⟨stands, goesOn⟩ := fills
      have width := stands.start_le_stop
      have further := inductionHypothesis goesOn
      omega

/-- Lines fill a stretch in two parts exactly if each part fills its own. -/
theorem fills_append :
    Fills layout index start (lines ++ later) next ↔
      ∃ middle, Fills layout index start lines middle ∧
        Fills layout (index + lines.length) middle later next := by
  induction lines generalizing index start with
  | nil =>
      constructor
      · intro fills
        exact ⟨start, rfl, fills⟩
      · rintro ⟨middle, rfl, fills⟩
        exact fills
  | cons line rest inductionHypothesis =>
      have places : index + 1 + rest.length = index + (line :: rest).length := by
        rw [List.length_cons]
        omega
      rw [List.cons_append, Fills, inductionHypothesis, places]
      constructor
      · rintro ⟨stands, middle, first, second⟩
        exact ⟨middle, ⟨stands, first⟩, second⟩
      · rintro ⟨middle, ⟨stands, first⟩, second⟩
        exact ⟨stands, middle, first, second⟩

/-- Lines in a row are determined by where they begin and by their shapes. -/
theorem Fills.eq_of_shapes {others : List (Line κ)} {last : Nat}
    (fills : Fills layout index start lines next)
    (fillsOthers : Fills layout index start others last)
    (same : lines.map Line.shape = others.map Line.shape) : lines = others := by
  induction lines generalizing index start others with
  | nil => exact (List.map_eq_nil_iff.mp same.symm).symm
  | cons line rest inductionHypothesis =>
      obtain ⟨other, more, rfl, shape, shapes⟩ := List.map_eq_cons_iff.mp same.symm
      obtain ⟨stands, goesOn⟩ := fills
      obtain ⟨standsOther, othersGoOn⟩ := fillsOthers
      obtain rfl := stands.eq_of_shape standsOther shape.symm
      rw [inductionHypothesis goesOn othersGoOn shapes.symm]

/-- Lines in a row that move together, and are not cut off, are in a row again and have kept
their shapes. -/
theorem Fills.moved (fills : Fills layout index start lines next) (distance : Int)
    (high : next + distance ≤ Word.largest + separatorLength) (first target last : Nat)
    (begins : (target : Int) = start + distance) (ends : (last : Int) = next + distance) :
    Fills layout first target
        (LineTable.stamped layout first (lines.map (Line.shift distance))) last ∧
      (LineTable.stamped layout first (lines.map (Line.shift distance))).map Line.shape =
        lines.map Line.shape := by
  induction lines generalizing index start first target with
  | nil =>
      obtain rfl : next = start := fills
      exact ⟨Int.ofNat.inj (ends.trans begins.symm), rfl⟩
  | cons line rest inductionHypothesis =>
      obtain ⟨stands, goesOn⟩ := fills
      have reach := goesOn.start_le
      have width := stands.start_le_stop
      have within : line.Within start line.stop :=
        ⟨Nat.le_of_eq stands.begins.symm, stands.indented, stands.ended, Nat.le_refl _⟩
      -- A line ends a separator before the lines after it, so the words have room for it.
      have moves : line.MovesBy distance := within.movesBy (by omega) (by omega)
      have further : (((line.shift distance).stop + separatorLength : Nat) : Int) =
          ((line.stop + separatorLength : Nat) : Int) + distance := by
        have stop := moves.stop
        omega
      obtain ⟨tail, shapes⟩ := inductionHypothesis goesOn (first + 1) _ further
      rw [List.map_cons, stamped_cons]
      refine ⟨⟨stands.moved moves first begins, tail⟩, ?_⟩
      rw [List.map_cons, List.map_cons, shapes, moves.shape_stamp]

end Fills

namespace LineTable

/-! ## Tables that cover a text -/

/-- Every line has the place on the page that the layout gives to its index. -/
def Stamped (table : LineTable κ) : Prop :=
  ∀ line ∈ table.lines, line.displayOrigin = table.layout.lineOrigin line.index

section Cover

variable {table : LineTable κ} {layout : Layout κ} {index start length : Nat}
  {line second : Line κ} {lines later : List (Line κ)}

omit [Coordinate κ] in
theorem tilesFrom_singleton :
    tilesFrom length index start [line] = true ↔
      (line.index = index ∧ line.start = start ∧ line.start ≤ line.indentEnd ∧
        line.indentEnd ≤ line.stop) ∧ line.stop = length := by
  simp only [tilesFrom, Bool.and_eq_true, decide_eq_true_eq, and_assoc]

omit [Coordinate κ] in
theorem tilesFrom_cons_cons :
    tilesFrom length index start (line :: second :: later) = true ↔
      (line.index = index ∧ line.start = start ∧ line.start ≤ line.indentEnd ∧
        line.indentEnd ≤ line.stop) ∧
        tilesFrom length (index + 1) (line.stop + separatorLength) (second :: later) = true := by
  rw [tilesFrom]
  simp only [Bool.and_eq_true, decide_eq_true_eq, and_assoc]

/-- Lines cover a text and are stamped exactly when they are in a row that ends where a
separator after the text would. -/
theorem tilesFrom_iff_fills :
    (tilesFrom length index start lines = true ∧
        ∀ line ∈ lines, line.displayOrigin = layout.lineOrigin line.index) ↔
      lines ≠ [] ∧ Fills layout index start lines (length + separatorLength) := by
  induction lines generalizing index start with
  | nil => exact iff_of_false (fun both => absurd both.1 Bool.false_ne_true) fun both => both.1 rfl
  | cons line later inductionHypothesis =>
      rw [and_iff_right (List.cons_ne_nil line later), Fills]
      cases later with
      | nil =>
          rw [tilesFrom_singleton, List.forall_mem_singleton, and_right_comm, ← Line.stands_iff,
            Fills, Nat.add_right_cancel_iff, eq_comm (a := length)]
      | cons second others =>
          rw [tilesFrom_cons_cons, List.forall_mem_cons, and_and_and_comm, ← Line.stands_iff,
            inductionHypothesis, and_iff_right (List.cons_ne_nil second others)]

/-- A table covers a text of some length, and its lines stand where its layout puts them. -/
structure Covers (table : LineTable κ) (length : Nat) : Prop where
  tiles : table.tiles length = true
  stamped : table.Stamped

/-- A table covers a text if its lines fill it with a separator to spare. -/
theorem covers_iff_fills :
    table.Covers length ↔
      table.lines ≠ [] ∧ Fills table.layout 0 0 table.lines (length + separatorLength) := by
  rw [← tilesFrom_iff_fills]
  exact ⟨fun covers => ⟨covers.tiles, covers.stamped⟩, fun both => ⟨both.1, both.2⟩⟩

theorem covers_of_fills (fills : Fills table.layout 0 0 table.lines (length + separatorLength))
    (some : table.lines ≠ []) : table.Covers length :=
  covers_iff_fills.mpr ⟨some, fills⟩

end Cover

/-! ## Splitting and folding -/

/-- One stretch of the lines of a table has given way to another.  The table that is left
covers a text of some length by the same layout, and the lines around the stretch have kept
their tokens and, reckoned from their starts, their indentation and their ends. -/
structure Changes (table next : LineTable κ) (length index old new : Nat) : Prop
    extends Covers next length where
  layout : next.layout = table.layout
  before : (next.lines.take index).map Line.shape = (table.lines.take index).map Line.shape
  after : (next.lines.drop (index + new)).map Line.shape =
    (table.lines.drop (index + old)).map Line.shape

section Changes

variable {table next : LineTable κ} {upper lower others : List (Line κ)} {above line : Line κ}
  {length offset : Nat}

theorem changes_of_shapes (old new : List (Line κ)) (covers : next.Covers length)
    (layout : next.layout = table.layout) (shape : table.lines = upper ++ (old ++ lower))
    (shapeNext : next.lines = upper ++ (new ++ others))
    (shapes : others.map Line.shape = lower.map Line.shape) :
    table.Changes next length upper.length old.length new.length where
  toCovers := covers
  layout := layout
  before := by rw [shape, shapeNext, List.take_left, List.take_left]
  after := by
    rw [shape, shapeNext, ← List.append_assoc, ← List.append_assoc, ← List.length_append,
      ← List.length_append, List.drop_left, List.drop_left, shapes]

/-- Splitting a line of a table that covers a text makes the table cover a text that is longer
by a separator, as long as there is such a text. -/
theorem Covers.exists_split (covers : table.Covers length)
    (shape : table.lines = upper ++ line :: lower) (low : line.start ≤ offset)
    (high : offset ≤ line.stop) (word : length + separatorLength ≤ Word.largest) :
    ∃ divided later, table.split upper.length offset = .ok (divided, upper.length + 1) ∧
      table.Changes divided (length + separatorLength) upper.length 1 2 ∧
      divided.lines = upper ++
        { line with stop := offset, indentEnd := min line.indentEnd offset } ::
        Line.bare (upper.length + 1) (offset + separatorLength) (line.stop + separatorLength)
          (table.layout.lineOrigin (upper.length + 1)) :: later ∧
      later.map Line.shape = lower.map Line.shape := by
  obtain ⟨-, fills⟩ := covers_iff_fills.mp covers
  rw [shape, fills_append] at fills
  obtain ⟨start, fillsUpper, stands, fillsLower⟩ := fills
  rw [Nat.zero_add] at stands fillsLower
  have reach := fillsLower.start_le
  have inside : line.contains offset = true := by
    rw [Line.contains, Bool.and_eq_true, decide_eq_true_eq, decide_eq_true_eq]
    exact ⟨low, high⟩
  obtain ⟨divided, splits, lines, layout⟩ := split_append_cons shape inside (by omega)
  obtain ⟨fillsLater, shapes⟩ := fillsLower.moved separatorLength (by omega) (upper.length + 2)
    (line.stop + separatorLength + separatorLength) (length + separatorLength + separatorLength)
    rfl rfl
  have fillsDivided : Fills divided.layout 0 0 divided.lines
      (length + separatorLength + separatorLength) := by
    rw [lines, layout, fills_append]
    refine ⟨start, fillsUpper, ?_⟩
    rw [Nat.zero_add]
    exact ⟨stands.kept low, Line.stands_bare _ _ (Nat.add_le_add_right high _), fillsLater⟩
  have coversDivided := covers_of_fills fillsDivided (by simp [lines])
  exact ⟨divided, _, splits,
    changes_of_shapes [line] [_, _] coversDivided layout shape lines shapes, lines, shapes⟩

/-- Folding a line of a table that covers a text makes the table cover a text that is shorter
by a separator. -/
theorem Covers.exists_merge (covers : table.Covers (length + separatorLength))
    (shape : table.lines = upper ++ above :: line :: lower)
    (word : length + separatorLength ≤ Word.largest) :
    ∃ folded later, table.merge (upper.length + 1) = .ok (folded, upper.length) ∧
      table.Changes folded length upper.length 2 1 ∧
      folded.lines = upper ++ { above with stop := line.stop - separatorLength } :: later ∧
      later.map Line.shape = lower.map Line.shape := by
  obtain ⟨-, fills⟩ := covers_iff_fills.mp covers
  rw [shape, fills_append] at fills
  obtain ⟨start, fillsUpper, standsAbove, stands, fillsLower⟩ := fills
  rw [Nat.zero_add] at standsAbove stands fillsLower
  have begins := stands.begins
  have width := stands.start_le_stop
  obtain ⟨folded, merges, lines, layout⟩ := merge_append_cons shape (by omega)
  obtain ⟨fillsLater, shapes⟩ := fillsLower.moved (-(separatorLength : Int)) (by omega)
    (upper.length + 1) (line.stop - separatorLength + separatorLength) (length + separatorLength)
    (by omega) (by omega)
  have fillsFolded : Fills folded.layout 0 0 folded.lines (length + separatorLength) := by
    rw [lines, layout, fills_append]
    refine ⟨start, fillsUpper, ?_⟩
    rw [Nat.zero_add]
    exact ⟨standsAbove.extended (by omega), fillsLater⟩
  have coversFolded := covers_of_fills fillsFolded (by simp [lines])
  exact ⟨folded, _, merges,
    changes_of_shapes [above, line] [_] coversFolded layout shape lines shapes, lines, shapes⟩

/-- Under lines that end alike at the same index, lines of two tables with the same shapes are
the same. -/
theorem Covers.lower_eq {total : Nat} {first second : List (Line κ)} {changed : Line κ}
    (covers : table.Covers length) (coversNext : next.Covers total)
    (layout : next.layout = table.layout) (shape : table.lines = first ++ line :: lower)
    (shapeNext : next.lines = second ++ changed :: others) (count : second.length = first.length)
    (stop : changed.stop = line.stop) (shapes : others.map Line.shape = lower.map Line.shape) :
    others = lower := by
  obtain ⟨-, fills⟩ := covers_iff_fills.mp covers
  obtain ⟨-, fillsNext⟩ := covers_iff_fills.mp coversNext
  rw [shape, fills_append] at fills
  rw [layout, shapeNext, fills_append] at fillsNext
  obtain ⟨-, -, -, below⟩ := fills
  obtain ⟨-, -, -, belowNext⟩ := fillsNext
  rw [stop, count] at belowNext
  exact belowNext.eq_of_shapes below shapes

end Changes

/-! ## There and back -/

/-- A line can be split at an offset on it and folded again, and then every line has its
index, its span and its place on the page back. -/
def SplitsAndFolds (table : LineTable κ) (length index offset : Nat) : Prop :=
  ∃ divided restored, table.split index offset = .ok (divided, index + 1) ∧
    table.Changes divided (length + separatorLength) index 1 2 ∧
    divided.merge (index + 1) = .ok (restored, index) ∧
    divided.Changes restored length index 2 1 ∧
    restored.lines.map Line.outline = table.lines.map Line.outline

/-- A line can be folded into the one above and split off again, and then every line has its
index, its span and its place on the page back. -/
def FoldsAndSplits (table : LineTable κ) (length index : Nat) : Prop :=
  ∃ above rest folded restored, table.get? (index - 1) = some above ∧
    length = rest + separatorLength ∧
    table.merge index = .ok (folded, index - 1) ∧
    table.Changes folded rest (index - 1) 2 1 ∧
    folded.split (index - 1) above.stop = .ok (restored, index) ∧
    folded.Changes restored length (index - 1) 1 2 ∧
    restored.lines.map Line.outline = table.lines.map Line.outline

section Inverse

variable {table : LineTable κ} {upper lower : List (Line κ)} {above line : Line κ}
  {length offset : Nat}

/-- Splitting a line and folding the halves gives the table back. -/
theorem Covers.splitsAndFolds (covers : table.Covers length)
    (shape : table.lines = upper ++ line :: lower) (low : line.start ≤ offset)
    (high : offset ≤ line.stop) (word : length + separatorLength ≤ Word.largest) :
    table.SplitsAndFolds length upper.length offset := by
  obtain ⟨divided, later, splits, divides, linesDivided, shapes⟩ :=
    covers.exists_split shape low high word
  obtain ⟨restored, last, merges, restores, linesRestored, shapesBack⟩ :=
    divides.toCovers.exists_merge linesDivided word
  -- The later lines have been shifted and stamped twice.  They are back because they begin where
  -- they did and have their shapes.
  have same : last = lower :=
    covers.lower_eq restores.toCovers (restores.layout.trans divides.layout) shape linesRestored
      rfl (Nat.add_sub_cancel _ _) (shapesBack.trans shapes)
  refine ⟨divided, restored, splits, divides, merges, restores, ?_⟩
  rw [linesRestored, shape, same]
  simp only [List.map_append, List.map_cons, Line.outline, Line.bare, Nat.add_sub_cancel]

/-- Folding two lines and splitting them gives the table back. -/
theorem Covers.foldsAndSplits (covers : table.Covers (length + separatorLength))
    (shape : table.lines = upper ++ above :: line :: lower)
    (word : length + separatorLength ≤ Word.largest) :
    table.FoldsAndSplits (length + separatorLength) (upper.length + 1) := by
  obtain ⟨folded, later, merges, folds, linesFolded, shapes⟩ := covers.exists_merge shape word
  obtain ⟨-, fills⟩ := covers_iff_fills.mp covers
  rw [shape, fills_append] at fills
  obtain ⟨start, -, standsAbove, stands, -⟩ := fills
  have begins := stands.begins
  have width := stands.start_le_stop
  have whole : line.stop - separatorLength + separatorLength = line.stop := by omega
  obtain ⟨restored, last, splits, restores, linesRestored, shapesBack⟩ :=
    folds.toCovers.exists_split linesFolded (Nat.le_trans standsAbove.indented standsAbove.ended)
      (show above.stop ≤ line.stop - separatorLength by omega) word
  have same : last = lower :=
    covers.lower_eq restores.toCovers (restores.layout.trans folds.layout)
      (shape.trans (List.append_cons _ _ _)) (linesRestored.trans (List.append_cons _ _ _))
      (by simp) whole (shapesBack.trans shapes)
  have opened : (Line.bare (upper.length + 1) (above.stop + separatorLength)
      (line.stop - separatorLength + separatorLength)
      (folded.layout.lineOrigin (upper.length + 1))).outline = line.outline := by
    have place : line.index = upper.length + 1 := by
      rw [stands.place, Nat.zero_add]
    have origin : line.displayOrigin = folded.layout.lineOrigin (upper.length + 1) := by
      rw [stands.origin, folds.layout, Nat.zero_add]
    rw [whole, ← origin, ← begins, ← place]
    rfl
  refine ⟨above, length, folded, restored, ?_, rfl, merges, folds, splits, restores, ?_⟩
  · rw [get?, shape]
    simp
  · rw [linesRestored, shape, same, List.map_append, List.map_append, List.map_cons, List.map_cons,
      List.map_cons, List.map_cons, opened]
    rfl

omit [Coordinate κ] in
theorem drop_of_get? {index : Nat} (found : table.get? index = some line) :
    table.lines.drop index = line :: table.lines.drop (index + 1) := by
  obtain ⟨inside, here⟩ := List.getElem?_eq_some_iff.mp found
  rw [List.drop_eq_getElem_cons inside, here]

/-- A text of two lines is as long as a separator at least. -/
theorem Covers.separatorLength_le (covers : table.Covers length)
    (shape : table.lines = upper ++ above :: line :: lower) : separatorLength ≤ length := by
  obtain ⟨-, fills⟩ := covers_iff_fills.mp covers
  rw [shape, fills_append] at fills
  obtain ⟨start, -, -, stands, fillsLower⟩ := fills
  have width := stands.start_le_stop
  have reach := fillsLower.start_le
  omega

end Inverse

/-- In a table that covers a text, splitting a line and folding it, in either order, are
inverse on every line's index, span and place, and leave the tokens and the indentation of all
other lines alone.  Splitting first needs the longer text to have a length. -/
theorem split_merge_inverse (table : LineTable κ) {length : Nat}
    (tiles : table.tiles length = true) (stamped : table.Stamped)
    (word : length ≤ Word.largest) :
    (length + separatorLength ≤ Word.largest → ∀ index line offset,
      table.get? index = some line → line.start ≤ offset → offset ≤ line.stop →
        table.SplitsAndFolds length index offset) ∧
    ∀ index, 0 < index → index < table.size → table.FoldsAndSplits length index := by
  have covers : table.Covers length := ⟨tiles, stamped⟩
  constructor
  · intro longer index line offset found low high
    have shape : table.lines = table.lines.take index ++ line :: table.lines.drop (index + 1) := by
      rw [← drop_of_get? found, List.take_append_drop]
    have goesBack := covers.splitsAndFolds shape low high longer
    have inside := (List.getElem?_eq_some_iff.mp found).1
    rwa [List.length_take_of_le (Nat.le_of_lt inside)] at goesBack
  · intro index positive inside
    obtain ⟨place, rfl⟩ := Nat.exists_eq_succ_of_ne_zero (Nat.ne_of_gt positive)
    have before : place < table.lines.length := Nat.lt_of_succ_lt inside
    have foundAbove : table.get? place = some table.lines[place] :=
      List.getElem?_eq_getElem before
    have found : table.get? (place + 1) = some table.lines[place + 1] :=
      List.getElem?_eq_getElem inside
    have shape : table.lines = table.lines.take place ++ table.lines[place] ::
        table.lines[place + 1] :: table.lines.drop (place + 1 + 1) := by
      rw [← drop_of_get? found, ← drop_of_get? foundAbove, List.take_append_drop]
    obtain ⟨rest, rfl⟩ := Nat.exists_eq_add_of_le' (covers.separatorLength_le shape)
    have goesBack := covers.foldsAndSplits shape word
    rwa [List.length_take_of_le (Nat.le_of_lt before)] at goesBack

/-! ## Concrete tables -/

/-- Three lines, the second of them indented by two characters. -/
def indentedSecond : LineTable Float32 where
  lines := [
    Line.bare 0 0 3 (Layout.standard.lineOrigin 0),
    { Line.bare 1 5 9 (Layout.standard.lineOrigin 1) with indentEnd := 7 },
    Line.bare 2 11 11 (Layout.standard.lineOrigin 2)]
  layout := Layout.standard

theorem split_merge_inverse_indentedSecond :
    indentedSecond.tiles 11 = true ∧ indentedSecond.Stamped ∧
      indentedSecond.SplitsAndFolds 11 1 6 ∧ indentedSecond.FoldsAndSplits 11 1 := by
  have tiles : indentedSecond.tiles 11 = true := by decide
  have stamped : indentedSecond.Stamped := by
    simp [Stamped, indentedSecond, Line.bare]
  obtain ⟨splits, folds⟩ := split_merge_inverse indentedSecond tiles stamped (by decide)
  exact ⟨tiles, stamped, splits (by decide) 1 _ 6 rfl (by decide) (by decide),
    folds 1 (by decide) (by decide)⟩

/-- Two lines of a text that leaves no room for a separator among the words. -/
def brimful : LineTable Float32 where
  lines := [
    Line.bare 0 0 0 (Layout.standard.lineOrigin 0),
    Line.bare 1 2 (Word.largest - 1) (Layout.standard.lineOrigin 1)]
  layout := Layout.standard

/-- Without room the last line stops at the largest word, and folding does not bring it back. -/
theorem split_merge_brimful :
    brimful.tiles (Word.largest - 1) = true ∧ brimful.Stamped ∧
      ∃ divided restored, brimful.split 0 0 = .ok (divided, 1) ∧
        divided.merge 1 = .ok (restored, 0) ∧
        restored.lines.map Line.outline ≠ brimful.lines.map Line.outline := by
  refine ⟨by decide, by simp [Stamped, brimful, Line.bare], _, _, rfl, rfl, ?_⟩
  intro same
  have stops := congrArg (List.map Line.stop) same
  exact absurd stops (by decide)

end LineTable

end EditorCore
