import EditorCore.Proofs.Transition

/-!
Contract: the cached distance of the caret keeps in step with the text.

Owns:
- `Gives`, what a computation comes to if it goes through, and how it is read off the
  steps of the computation;
- `GlyphMetrics.AddsUp`, metrics whose widths may be added and taken off again;
- `Editor.Measured`, a caret whose distance is the width of what stands before it on its
  line, and that every request keeps it so where widths add up.

Does not own: which metrics add up.
-/

namespace EditorCore

/-! ## What a computation gives -/

section Gives

variable {ε α β : Type} {kind : α → Prop} {other : β → Prop}

/-- If a computation goes through, its value is of a kind. -/
def Gives (kind : α → Prop) (outcome : Except ε α) : Prop :=
  ∀ value, outcome = .ok value → kind value

theorem Gives.ok {value : α} (holds : kind value) : Gives kind (.ok value : Except ε α) := by
  rintro _ ⟨⟩
  exact holds

theorem Gives.error {cause : ε} : Gives kind (.error cause : Except ε α) := nofun

/-- A property carried through a computation step by step. -/
theorem Gives.bind {outcome : Except ε α} {later : α → Except ε β} (first : Gives kind outcome)
    (goesOn : ∀ value, kind value → Gives other (later value)) :
    Gives other (outcome >>= later) := by
  intro result goes
  obtain ⟨value, here, there⟩ := exists_of_bind goes
  exact goesOn value (first value here) result there

/-- A step about whose value nothing is known but where it comes from. -/
theorem Gives.step {outcome : Except ε α} {later : α → Except ε β}
    (goesOn : ∀ value, outcome = .ok value → Gives other (later value)) :
    Gives other (outcome >>= later) :=
  Gives.bind (fun _ => id) goesOn

/-- A check that has to be passed. -/
theorem Gives.unless {fails : Prop} [Decidable fails] {cause : ε} {later : Unit → Except ε α}
    (goesOn : ¬ fails → Gives kind (later ())) :
    Gives kind (if fails then throw cause >>= later else later ()) := by
  split
  · exact .error
  · rename_i passes
    exact goesOn passes

end Gives

/-! ## Ranges of the text -/

namespace Buffer

variable (buffer : Buffer) {start middle stop : Nat}

@[simp]
theorem slice_self (offset : Nat) : buffer.slice offset offset = [] := by
  rw [slice_eq]
  exact List.drop_of_length_le (List.length_take_le _ _)

/-- Two slices that meet are one. -/
theorem slice_append (order : start ≤ middle) (further : middle ≤ stop) :
    buffer.slice start middle ++ buffer.slice middle stop = buffer.slice start stop := by
  rw [slice, slice, slice, ← Array.toList_append, Array.extract_append_extract,
    Nat.min_eq_left order, Nat.max_eq_right further]

theorem slice_succ (offset : Nat) :
    buffer.slice offset (offset + 1) = (buffer.charAt offset).toList := by
  rw [slice_eq, charAt_eq]
  by_cases inside : offset < buffer.toList.length
  · rw [List.take_succ_eq_append_getElem inside, List.getElem?_eq_getElem inside,
      List.drop_append_of_le_length (by rw [List.length_take]; omega),
      List.drop_of_length_le (List.length_take_le _ _)]
    rfl
  · rw [List.getElem?_eq_none (Nat.le_of_not_lt inside),
      List.drop_of_length_le (by rw [List.length_take]; omega)]
    rfl

theorem take_slice {count : Nat} (inside : count ≤ (buffer.slice start stop).length) :
    (buffer.slice start stop).take count = buffer.slice start (start + count) := by
  rcases Nat.eq_zero_or_pos count with rfl | some
  · rw [List.take_zero, Nat.add_zero, slice_self]
  · rw [slice_eq, List.length_drop, List.length_take] at inside
    rw [slice_eq, slice_eq, List.take_drop, List.take_take, Nat.min_eq_left (by omega)]

/-- A slice that ends with the run that was put. -/
theorem slice_spliced {offset : Nat} (run : List Char) (order : start ≤ offset)
    (inside : offset ≤ buffer.length) :
    (buffer.spliced offset run).slice start (offset + run.length) =
      buffer.slice start offset ++ run := by
  have reach : (buffer.toList.take offset).length = offset := by
    rw [List.length_take, length_toList, Nat.min_eq_left inside]
  have whole : (buffer.toList.take offset ++ run).length = offset + run.length := by
    rw [List.length_append, reach]
  rw [slice_eq, slice_eq, toList_spliced, List.take_append_of_le_length (Nat.le_of_eq whole.symm),
    List.take_of_length_le (Nat.le_of_eq whole), List.drop_append_of_le_length (by omega)]

theorem slice_removeRange :
    (buffer.removeRange middle stop).slice start middle = buffer.slice start middle := by
  rw [slice_eq, slice_eq, toList_removeRange]
  split
  · by_cases inside : middle ≤ buffer.toList.length
    · have reach : (buffer.toList.take middle).length = middle := by
        rw [List.length_take, Nat.min_eq_left inside]
      rw [List.take_append_of_le_length (Nat.le_of_eq reach.symm), List.take_take, Nat.min_self]
    · rw [List.drop_of_length_le (by omega : buffer.toList.length ≤ stop), List.append_nil,
        List.take_take, Nat.min_self]
  · rfl

/-- What has been inserted has been spliced, inside the text. -/
theorem gives_insert (offset : Nat) (run : List Char) :
    Gives (Gives fun grown => offset ≤ buffer.length ∧ grown = buffer.spliced offset run)
      (buffer.insert offset run) := by
  refine Gives.step fun room _ => ?_
  cases room with
  | error refusal => exact .ok .error
  | ok room =>
      change Gives _ (if offset ≤ buffer.length then _ else _)
      split
      · rename_i inside
        exact .ok (.ok ⟨inside, rfl⟩)
      · exact .error

end Buffer

namespace LineTable

variable {κ : Type} {table : LineTable κ} {index : Nat} {line : Line κ}

/-- A line is found exactly where the table has it. -/
theorem get_eq_ok_iff : table.get index = .ok line ↔ table.get? index = some line := by
  unfold get
  split
  · rename_i other found
    rw [found]
    exact ⟨fun same => congrArg some (Except.ok.inj same),
      fun same => congrArg Except.ok (Option.some.inj same)⟩
  · rename_i missing
    rw [missing]
    exact ⟨nofun, nofun⟩

/-- Lines below a changed line may be moved on. -/
theorem get_shiftFrom_update (found : table.get index = .ok line) (change : Line κ → Line κ)
    (distance : Int) :
    ((table.update index change).shiftFrom (index + 1) distance).get index =
      .ok (change line) := by
  rw [get_eq_ok_iff, get?] at found ⊢
  obtain ⟨inside, -⟩ := List.getElem?_eq_some_iff.mp found
  rw [shiftFrom, update, List.getElem?_append_left (by simp; omega)]
  simp [found]

end LineTable

/-! ## Widths that add up -/

variable {κ : Type}

/-- Widths at a size may be added, and a width that was added may be taken off again. -/
structure GlyphMetrics.AddsUp [Coordinate κ] (metrics : GlyphMetrics κ) (size : κ) : Prop where
  nil : metrics.runWidth [] size = 0
  singleton : ∀ char, metrics.runWidth [char] size = metrics.advance char size
  append : ∀ first second, metrics.runWidth (first ++ second) size =
    metrics.runWidth first size + metrics.runWidth second size
  takenOff : ∀ first second,
    Coordinate.clampToZero
        (metrics.runWidth (first ++ second) size - metrics.runWidth second size) =
      metrics.runWidth first size

namespace Editor

/-- An editor with some metrics at some size, whose caret is as far from the start of its
line as the characters between them are wide. -/
structure Gauged (metrics : GlyphMetrics κ) (size : κ) (editor : Editor κ) (line : Line κ) :
    Prop where
  metrics_eq : editor.metrics = metrics
  size_eq : editor.options.textSize = size
  here : editor.currentLine = .ok line
  x_eq : editor.cursor.x =
    metrics.runWidth (editor.buffer.slice line.start editor.cursor.caret) size

/-- The caret's distance is right, and the caret is not before its line. -/
def Measured (metrics : GlyphMetrics κ) (size : κ) (editor : Editor κ) : Prop :=
  ∃ line, editor.Gauged metrics size line ∧ line.start ≤ editor.cursor.caret

section Upkeep

variable {metrics : GlyphMetrics κ} {size : κ} {editor : Editor κ} {line : Line κ}

/-- A distance that is measured afresh is right, wherever the caret has been put. -/
theorem gives_refreshX (same : editor.metrics = metrics) (sized : editor.options.textSize = size) :
    Gives (fun next => ∃ line, Gauged metrics size next line) editor.refreshX := by
  refine Gives.step fun line here => .ok ⟨line, same, sized, here, ?_⟩
  rw [← same, ← sized]
  rfl

/-- Relexing leaves the starts of lines where they are. -/
theorem Gauged.relexRange [Coordinate κ] (gauged : Gauged metrics size editor line)
    (first last : Nat) :
    ∃ fresh, Gauged metrics size (editor.relexRange first last) fresh ∧
      fresh.start = line.start := by
  obtain ⟨word, ranges⟩ := editor.relexRange_eq first last
  let count := last + 1 - first
  let fresh := if first ≤ editor.cursor.line ∧ editor.cursor.line < first + count then
    editor.rebuilt (editor.cursor.line + 1 < editor.lines.size) line else line
  have start : fresh.start = line.start := by
    change (if _ then editor.rebuilt _ line else line).start = line.start
    split <;> rfl
  have found := LineTable.get_eq_ok_iff.mp gauged.here
  have here : (editor.rebuiltRange first count word).currentLine = .ok fresh := by
    rw [LineTable.get?] at found
    rw [currentLine, LineTable.get_eq_ok_iff, LineTable.get?, rebuiltRange,
      List.getElem?_mapIdx, found]
    rfl
  rw [ranges]
  refine ⟨fresh, ⟨gauged.metrics_eq, gauged.size_eq, here, ?_⟩, start⟩
  rw [start]
  exact gauged.x_eq

theorem Gauged.relexAll [Coordinate κ] (gauged : Gauged metrics size editor line) :
    Gives (fun next => ∃ fresh, Gauged metrics size next fresh ∧ fresh.start = line.start ∧
      next.cursor.caret = editor.cursor.caret) editor.relexAll := by
  refine Gives.step fun last _ => ?_
  obtain ⟨fresh, relexed, start⟩ := gauged.relexRange 0 last
  obtain ⟨word, ranges⟩ := editor.relexRange_eq 0 last
  exact .ok ⟨fresh, relexed, start, by rw [ranges]; rfl⟩

/-- The check that ends an operation finds the caret on its line. -/
theorem Gauged.finish (gauged : Gauged metrics size editor line) :
    Gives (Measured metrics size) editor.finish := by
  refine Gives.step fun level _ => Gives.step fun position _ => Gives.unless fun _ => ?_
  refine Gives.step fun other here => Gives.unless fun inside => .ok ⟨other, ?_, ?_⟩
  · obtain rfl := Except.ok.inj (gauged.here.symm.trans here)
    exact ⟨gauged.metrics_eq, gauged.size_eq, here, gauged.x_eq⟩
  · rw [Bool.not_eq_false, Line.contains, Bool.and_eq_true] at inside
    exact of_decide_eq_true inside.1

/-- Settling turns a gauged caret into a measured one. -/
theorem Gauged.settle (gauged : Gauged metrics size editor line) :
    Gives (Measured metrics size) editor.settle := by
  have cleared :
      Gauged metrics size { editor with cursor := editor.cursor.clearDesired } line :=
    ⟨gauged.metrics_eq, gauged.size_eq, gauged.here, gauged.x_eq⟩
  exact cleared.finish

end Upkeep

/-! ## The four changes -/

section Splice

variable [Coordinate κ] {metrics : GlyphMetrics κ} {size : κ} {editor : Editor κ} {line : Line κ}

/-- A run that is put at the caret adds its width. -/
theorem Measured.insertRun (adds : metrics.AddsUp size) (measured : Measured metrics size editor)
    (run : List Char) : Gives (Gives (Measured metrics size)) (editor.insertRun run) := by
  unfold Editor.insertRun
  split
  · exact .ok (.ok measured)
  · refine (editor.buffer.gives_insert editor.cursor.caret run).bind fun grown inserts => ?_
    cases grown with
    | error refusal => exact .ok .error
    | ok buffer =>
        obtain ⟨inside, rfl⟩ := inserts buffer rfl
        obtain ⟨line, gauged, starts⟩ := measured
        refine .ok (.ok ⟨_, ⟨gauged.metrics_eq, gauged.size_eq,
          LineTable.get_shiftFrom_update gauged.here _ _, ?_⟩, Nat.le_add_right_of_le starts⟩)
        change editor.cursor.x + editor.metrics.runWidth run editor.options.textSize =
          metrics.runWidth ((editor.buffer.spliced editor.cursor.caret run).slice line.start
            (editor.cursor.caret + run.length)) size
        rw [editor.buffer.slice_spliced run starts inside, adds.append, ← gauged.x_eq,
          gauged.metrics_eq, gauged.size_eq]

/-- A caret that opens a line stands at its start. -/
theorem Measured.splitLine (adds : metrics.AddsUp size) (measured : Measured metrics size editor) :
    Gives (Gives (Measured metrics size)) editor.splitLine := by
  obtain ⟨line, gauged, -⟩ := measured
  refine Gives.step fun grown _ => ?_
  cases grown with
  | error refusal => exact .ok .error
  | ok buffer =>
      refine Gives.step fun ⟨lines, index⟩ _ => Gives.step fun opened here => ?_
      refine .ok (.ok ⟨opened, ⟨gauged.metrics_eq, gauged.size_eq, here, ?_⟩, Nat.le_refl _⟩)
      rw [Buffer.slice_self, adds.nil]

/-- Removed characters take their width with them. -/
theorem Measured.removeBeforeCaret (adds : metrics.AddsUp size)
    (measured : Measured metrics size editor) (count : Nat) :
    Gives (Measured metrics size) (editor.removeBeforeCaret count) := by
  obtain ⟨line, gauged, -⟩ := measured
  refine Gives.step fun other here => Gives.unless fun reaches => Gives.step fun stop _ => ?_
  obtain rfl := Except.ok.inj (gauged.here.symm.trans here)
  refine .ok ⟨_, ⟨gauged.metrics_eq, gauged.size_eq,
    LineTable.get_shiftFrom_update gauged.here _ _, ?_⟩, ?_⟩
  · change Coordinate.clampToZero (editor.cursor.x -
        editor.metrics.runWidth (editor.buffer.slice (editor.cursor.caret - count)
          editor.cursor.caret) editor.options.textSize) =
      metrics.runWidth ((editor.buffer.removeRange (editor.cursor.caret - count)
        editor.cursor.caret).slice line.start (editor.cursor.caret - count)) size
    rw [Buffer.slice_removeRange, gauged.x_eq, gauged.metrics_eq, gauged.size_eq,
      ← editor.buffer.slice_append (by omega : line.start ≤ editor.cursor.caret - count)
        (Nat.sub_le _ _)]
    exact adds.takenOff _ _
  · change line.start ≤ editor.cursor.caret - count
    omega

/-- Folding measures afresh. -/
theorem gives_mergeLine (same : editor.metrics = metrics)
    (sized : editor.options.textSize = size) :
    Gives (fun next => ∃ line, Gauged metrics size next line) editor.mergeLine := by
  unfold Editor.mergeLine
  refine Gives.unless fun _ => ?_
  refine Gives.step fun above _ => Gives.step fun ⟨lines, index⟩ _ => ?_
  exact gives_refreshX same sized

/-- Streaming lines measures the caret on each of them. -/
theorem Measured.streamLines (adds : metrics.AddsUp size) (pieces : List (List Char)) :
    ∀ {editor : Editor κ}, Measured metrics size editor →
      Gives (fun pair => Measured metrics size pair.1) (editor.streamLines pieces) := by
  induction pieces with
  | nil => exact fun measured => .ok measured
  | cons piece later inductionHypothesis =>
      intro editor measured
      refine (measured.splitLine adds).bind fun outcome splits => ?_
      cases outcome with
      | error refusal => exact .ok measured
      | ok opened =>
          have openedMeasured := splits opened rfl
          refine (openedMeasured.insertRun adds piece).bind fun outcome fills => ?_
          cases outcome with
          | error refusal => exact .ok openedMeasured
          | ok filled => exact inductionHypothesis (fills filled rfl)

theorem Measured.streamSegments (adds : metrics.AddsUp size)
    (measured : Measured metrics size editor) (pieces : List (List Char)) :
    Gives (fun pair => Measured metrics size pair.1) (editor.streamSegments pieces) := by
  cases pieces with
  | nil => exact .ok measured
  | cons first later =>
      refine (measured.insertRun adds first).bind fun outcome fills => ?_
      cases outcome with
      | error refusal => exact .ok measured
      | ok filled => exact Measured.streamLines adds later (fills filled rfl)

theorem Measured.insertUnits (adds : metrics.AddsUp size) (count : Nat) :
    ∀ {editor : Editor κ}, Measured metrics size editor →
      Gives (Measured metrics size) (editor.insertUnits count) := by
  induction count with
  | zero => exact fun measured => .ok measured
  | succ count inductionHypothesis =>
      intro editor measured
      refine (measured.insertRun adds editor.options.indentUnit.chars).bind
        fun outcome deepens => ?_
      cases outcome with
      | error refusal => exact .ok measured
      | ok deeper => exact inductionHypothesis (deepens deeper rfl)

end Splice

/-! ## Edits -/

section Edits

variable [Coordinate κ] {metrics : GlyphMetrics κ} {size : κ} {editor : Editor κ}
  {line : Line κ}

/-- The end of an edit: some lines are relexed. -/
theorem Gauged.settleRange (gauged : Gauged metrics size editor line) (first last : Nat) :
    Gives (Measured metrics size) (editor.relexRange first last).settle := by
  obtain ⟨fresh, relexed, -⟩ := gauged.relexRange first last
  exact relexed.settle

theorem Gauged.settleLine {α : Type} (gauged : Gauged metrics size editor line) (index : Nat)
    (result : α) :
    Gives (fun pair => Measured metrics size pair.1)
      (do return (← (editor.relexLine index).settle, result)) := by
  rw [relexLine_eq_relexRange]
  exact (gauged.settleRange index index).bind fun last settled => .ok settled

variable (adds : metrics.AddsUp size) (measured : Measured metrics size editor)

include adds measured

/-- Typing a run adds up the advances of the run. -/
theorem Measured.typeRun (run : List Char) :
    Gives (fun pair => Measured metrics size pair.1) (editor.typeRun run) := by
  refine (measured.insertRun adds run).bind fun outcome types => ?_
  cases outcome with
  | error refusal => exact .ok measured
  | ok typed =>
      obtain ⟨line, gauged, -⟩ := types typed rfl
      exact gauged.settleLine editor.cursor.line true

theorem Measured.openLine (level : Nat) :
    Gives (fun pair => Measured metrics size pair.1) (editor.openLine level) := by
  refine Gives.step fun room _ => ?_
  cases room with
  | error refusal => exact .ok measured
  | ok room =>
      refine (measured.splitLine adds).bind fun outcome splits => ?_
      cases outcome with
      | error refusal => exact .ok measured
      | ok opened =>
          refine (Measured.insertUnits adds level (splits opened rfl)).bind
            fun indented indents => ?_
          obtain ⟨line, gauged, -⟩ := indents
          change Gives _ (((indented.relexLine editor.cursor.line).relexLine
            (editor.cursor.line + 1)).settle >>= _)
          rw [relexLine_relexLine]
          exact (gauged.settleRange _ _).bind fun last settled => .ok settled

theorem Measured.indent :
    Gives (fun pair => Measured metrics size pair.1) editor.indent :=
  measured.typeRun adds _

theorem Measured.remove (count : Nat) :
    Gives (fun pair => Measured metrics size pair.1) (do
      let removed ← editor.removeBeforeCaret count
      return (← (removed.relexLine editor.cursor.line).settle, true)) := by
  refine (measured.removeBeforeCaret adds count).bind fun removed removes => ?_
  obtain ⟨line, gauged, -⟩ := removes
  exact gauged.settleLine editor.cursor.line true

theorem Measured.deletePlain :
    Gives (fun pair => Measured metrics size pair.1) editor.deletePlain := by
  unfold Editor.deletePlain
  split
  · exact .ok measured
  · refine Gives.step fun line _ => ?_
    split
    · obtain ⟨line, gauged, -⟩ := measured
      refine (gives_mergeLine gauged.metrics_eq gauged.size_eq).bind fun merged merges => ?_
      obtain ⟨joined, fresh⟩ := merges
      exact fresh.settleLine merged.cursor.line true
    · exact measured.remove adds 1

/-- Removing a unit measures the line afresh. -/
theorem Measured.outdent :
    Gives (fun pair => Measured metrics size pair.1) editor.outdent := by
  refine Gives.step fun boundary _ => ?_
  split
  · refine Gives.step fun line _ => ?_
    change Gives _ (if _ then _ else _)
    split
    · exact .ok measured
    · exact measured.remove adds _
  · exact measured.deletePlain adds

/-- A paste measures what it has put. -/
theorem Measured.paste (text : String) :
    Gives (fun pair => Measured metrics size pair.1) (editor.paste text) := by
  unfold Editor.paste
  split
  · exact .ok measured
  · change Gives _ (if _ then _ else _)
    split
    · exact .ok measured
    · refine Gives.step fun room _ => ?_
      cases room with
      | error refusal => exact .ok measured
      | ok room =>
          refine (measured.streamSegments adds _).bind fun pair streams => ?_
          obtain ⟨filled, refusal | taken⟩ := pair
          · exact .ok streams
          · obtain ⟨line, gauged, -⟩ := streams
            exact (gauged.settleRange _ _).bind fun last settled => .ok settled

/-- A loaded document has the caret measured at its end. -/
theorem Measured.loadDocument (text : String) :
    Gives (fun pair => Measured metrics size pair.1) (editor.loadDocument text) := by
  obtain ⟨line, gauged, -⟩ := id measured
  have blank : Measured metrics size (editor.cleared text) := by
    refine ⟨_, ⟨gauged.metrics_eq, gauged.size_eq, rfl, ?_⟩, Nat.zero_le _⟩
    exact adds.nil.symm
  unfold Editor.loadDocument
  change Gives _ (if _ then _ else _)
  split
  · exact .ok measured
  · refine (blank.streamSegments adds _).bind fun pair streams => ?_
    obtain ⟨filled, refusal | taken⟩ := pair
    · exact .ok streams
    · obtain ⟨line, gauged, -⟩ := streams
      refine gauged.relexAll.bind fun relexed relexes => ?_
      obtain ⟨fresh, gauged, -⟩ := relexes
      exact gauged.finish.bind fun last finished => .ok finished

end Edits

end Editor

end EditorCore
