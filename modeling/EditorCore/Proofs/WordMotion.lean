import EditorCore.Proofs.Manuscript
import EditorCore.Proofs.Positions
import EditorCore.Proofs.Runs

/-!
Contract: word motion goes from one stop to the next.

Owns:
- the stops of a document, which are the ends of its lines and the sides of the
  terminals in them;
- that a step over characters ends at the first stop;
- that word motion in either direction goes to the next stop, comes back from there
  to a stop, and gets to the end of the document.

Does not own: which characters are terminals.
-/

namespace EditorCore

/-! ## Stops -/

/-- A position of some lines that a line starts or ends at or that a terminal
follows or precedes. -/
def IsWordStop (terminals : List Char) (line? : Nat → Option (List Char)) (position : Position) :
    Prop :=
  ∃ line, line? position.line = some line ∧ position.column ≤ line.length ∧
    (position.column = 0 ∨ position.column = line.length ∨
      isBefore terminals.contains line position.column = true ∨
      isAt terminals.contains line position.column = true)

/-! ## Steps -/

/-- Some characters on, all of them are passed or there is a terminal to one side. -/
def StopsAfter (terminals chars : List Char) (place : Nat) : Prop :=
  place = chars.length ∨ isBefore terminals.contains chars place = true ∨
    isAt terminals.contains chars place = true

/-- A step over characters goes to their first stop. -/
structure StepsOver (terminals chars : List Char) (step : Nat) : Prop where
  some : 0 < step
  inside : step ≤ chars.length
  stops : StopsAfter terminals chars step
  passes : ∀ place, 0 < place → place < step → ¬ StopsAfter terminals chars place

/-- A word step goes over as much as the rules for words say. -/
theorem stepsOver_wordStepOver (terminals : List Char) {chars : List Char} (some : chars ≠ []) :
    StepsOver terminals chars (wordStepOver terminals chars) := by
  obtain ⟨char, rest, rfl⟩ := List.exists_cons_of_ne_nil some
  rw [wordStepOver]
  by_cases terminal : terminals.contains char = true
  · rw [if_pos terminal]
    refine ⟨Nat.one_pos, Nat.succ_le_succ (Nat.zero_le _), .inr (.inl terminal), ?_⟩
    intro place after before
    omega
  · rw [if_neg terminal]
    have run := longestRun_takeWhile (fun next => !terminals.contains next) [] (char :: rest)
    have inside := (List.takeWhile_sublist (l := char :: rest)
      (fun next => !terminals.contains next)).length_le
    rw [List.nil_append, List.length_nil, Nat.zero_add] at run
    refine ⟨?_, inside, ?_, ?_⟩
    · rw [List.takeWhile_cons, if_pos (by simpa using terminal)]
      exact Nat.succ_pos _
    · rcases Nat.lt_or_eq_of_le inside with more | all
      · exact .inr (.inr (isAt_of_not_eq_false more run.ends))
      · exact .inl all
    · intro place after before stops
      obtain ⟨previous, rfl⟩ := Nat.exists_eq_add_of_lt after
      rw [Nat.zero_add] at before stops
      have left := isAt_eq_false_of_not (run.inside previous (Nat.zero_le _) (by omega))
      have right := isAt_eq_false_of_not (run.inside (previous + 1) (Nat.zero_le _) before)
      rcases stops with all | terminal | terminal
      · omega
      · exact Bool.false_ne_true (left.symm.trans terminal)
      · exact Bool.false_ne_true (right.symm.trans terminal)

/-- Where steps over characters lead, along positions that lie ahead of one another and
stop where the characters do, is to the nearest stop. -/
theorem nearest_of_step {stops : Position → Prop} {ahead : Position → Position → Prop}
    {terminals chars : List Char} (along : Nat → Position) (some : chars ≠ [])
    (agree : ∀ place, 0 < place → place ≤ chars.length →
      (stops (along place) ↔ StopsAfter terminals chars place))
    (ordered : ∀ place later, place < later → later ≤ chars.length →
      ahead (along place) (along later))
    (reach : ∀ other, stops other → ahead (along 0) other →
      (∃ place, 0 < place ∧ place ≤ chars.length ∧ other = along place) ∨
        ∀ place, place ≤ chars.length → ahead (along place) other) :
    Position.Nearest stops ahead (along 0) (along (wordStepOver terminals chars)) := by
  have steps := stepsOver_wordStepOver terminals some
  refine ⟨(agree _ steps.some steps.inside).mpr steps.stops,
    ordered _ _ steps.some steps.inside, ?_⟩
  intro other stop beyond different
  rcases reach other stop beyond with ⟨place, some, inside, rfl⟩ | past
  · have stopsHere := (agree place some inside).mp stop
    rcases Nat.lt_trichotomy place (wordStepOver terminals chars) with before | same | after
    · exact absurd stopsHere (steps.passes place some before)
    · exact absurd (congrArg along same) different
    · exact ordered _ _ after inside
  · exact past _ steps.inside

/-! ## The next stop -/

namespace Draft

variable (terminals : List Char) (draft : Draft)

def IsStop (position : Position) : Prop :=
  IsWordStop terminals (fun row => draft.lines[row]?) position

variable {terminals draft}

theorem isStop_congr {other : Draft} (same : other.lines = draft.lines) :
    other.IsStop terminals = draft.IsStop terminals := by
  funext position
  rw [IsStop, IsStop, same]

theorem isStop_onRow {column : Nat} :
    draft.IsStop terminals { line := draft.row, column } ↔
      column ≤ draft.current.length ∧
        (column = 0 ∨ column = draft.current.length ∨
          isBefore terminals.contains draft.current column = true ∨
          isAt terminals.contains draft.current column = true) := by
  constructor
  · rintro ⟨line, found, stop⟩
    obtain rfl := Option.some.inj (draft.getElem?_lines_row.symm.trans found)
    exact stop
  · exact fun stop => ⟨draft.current, draft.getElem?_lines_row, stop⟩

/-- Inside a line the next stop is one word step to the right. -/
theorem nearest_right (inLine : draft.column < draft.current.length) :
    Position.Nearest (draft.IsStop terminals) Position.Before draft.position
      { line := draft.row, column := draft.column + wordStepOver terminals draft.after } := by
  have width := draft.length_current
  have some : draft.after ≠ [] := by
    rw [← List.length_pos_iff]
    omega
  refine nearest_of_step (fun place => { line := draft.row, column := draft.column + place })
    some ?_ ?_ ?_
  · intro place some inside
    have left : isBefore terminals.contains draft.current (draft.column + place) =
        isBefore terminals.contains draft.after place := isBefore_append some
    have right : isAt terminals.contains draft.current (draft.column + place) =
        isAt terminals.contains draft.after place := isAt_append place
    have fits : draft.column + place ≤ draft.current.length := by omega
    have inner : draft.column + place ≠ 0 := by omega
    have whole : draft.column + place = draft.current.length ↔ place = draft.after.length := by
      omega
    rw [isStop_onRow, left, right, whole, and_iff_right fits, or_iff_right inner, StopsAfter]
  · intro place later before inside
    rw [Position.before_iff]
    exact .inr ⟨rfl, Nat.add_lt_add_left before _⟩
  · rintro ⟨line, column⟩ stop beyond
    rcases Position.before_iff.mp beyond with below | ⟨rfl, further⟩
    · exact .inr fun place inside => Position.before_iff.mpr (.inl below)
    · have fits := (isStop_onRow.mp stop).1
      simp only at further
      refine .inl ⟨column - draft.column, by omega, by omega, ?_⟩
      rw [Position.mk.injEq]
      exact ⟨rfl, by omega⟩

/-- Inside a line the stop before is one word step to the left. -/
theorem nearest_left (inLine : 0 < draft.column) :
    Position.Nearest (draft.IsStop terminals) Position.Behind draft.position
      { line := draft.row
        column := draft.column - wordStepOver terminals draft.before.reverse } := by
  have width := draft.length_current
  have column : draft.before.length = draft.column := rfl
  have columns : draft.before.reverse.length = draft.column := List.length_reverse
  have some : draft.before.reverse ≠ [] := by
    rw [← List.length_pos_iff]
    omega
  refine nearest_of_step (fun place => { line := draft.row, column := draft.column - place })
    some ?_ ?_ ?_
  · intro place some inside
    -- Read backwards, the two sides of a place change over.
    have right : isAt terminals.contains draft.current (draft.column - place) =
        isBefore terminals.contains draft.before.reverse place :=
      (isBefore_reverse draft.after some (by omega)).symm
    have left (inner : place < draft.column) :
        isBefore terminals.contains draft.current (draft.column - place) =
          isAt terminals.contains draft.before.reverse place :=
      (isAt_reverse draft.after inner).symm
    have fits : draft.column - place ≤ draft.current.length := by omega
    have short : draft.column - place ≠ draft.current.length := by omega
    have whole : draft.column - place = 0 ↔ place = draft.before.reverse.length := by omega
    rw [isStop_onRow, and_iff_right fits, or_iff_right short, whole, StopsAfter, right]
    rcases Nat.lt_or_eq_of_le inside with inner | all
    · rw [left (by omega)]
      exact or_congr_right or_comm
    · exact iff_of_true (.inl all) (.inl all)
  · intro place later before inside
    rw [Position.Behind, Position.before_iff]
    exact .inr ⟨rfl, by simp only; omega⟩
  · rintro ⟨line, column⟩ stop beyond
    rcases Position.before_iff.mp beyond with above | ⟨rfl, further⟩
    · exact .inr fun place inside => Position.before_iff.mpr (.inl above)
    · simp only at further
      refine .inl ⟨draft.column - column, by omega, by omega, ?_⟩
      rw [Position.mk.injEq]
      exact ⟨rfl, by omega⟩

/-- At the end of a line the next stop is the start of the line below. -/
theorem nearest_onward (atEnd : draft.column = draft.current.length)
    (more : draft.row + 1 < draft.lines.length) :
    Position.Nearest (draft.IsStop terminals) Position.Before draft.position
      { line := draft.row + 1, column := 0 } := by
  obtain ⟨line, found⟩ := draft.exists_line (draft.row + 1) more
  refine ⟨⟨line, found, Nat.zero_le _, .inl rfl⟩, ?_, ?_⟩
  · rw [Position.before_iff]
    exact .inl (Nat.lt_succ_self draft.row)
  · rintro ⟨row, column⟩ stop beyond different
    rw [ne_eq, Position.mk.injEq] at different
    rw [Position.before_iff] at beyond ⊢
    simp only [position] at beyond ⊢
    rcases beyond with below | ⟨rfl, further⟩
    · omega
    · have fits := (isStop_onRow.mp stop).1
      omega

/-- At the start of a line the stop before is the end of the line above. -/
theorem nearest_backward (atStart : draft.column = 0) (more : 0 < draft.row) :
    Position.Nearest (draft.IsStop terminals) Position.Behind draft.position
      (draft.endOf (draft.row - 1)) := by
  have inside := draft.row_lt_length_lines
  obtain ⟨line, found⟩ := draft.exists_line (draft.row - 1) (by omega)
  rw [endOf, lengthOf_eq found]
  refine ⟨⟨line, found, Nat.le_refl _, .inr (.inl rfl)⟩, ?_, ?_⟩
  · rw [Position.Behind, Position.before_iff]
    exact .inl (Nat.sub_lt more Nat.one_pos)
  · rintro ⟨row, column⟩ ⟨chars, here, fits, -⟩ beyond different
    rw [ne_eq, Position.mk.injEq] at different
    rw [Position.Behind, Position.before_iff] at beyond ⊢
    simp only [position] at beyond fits here ⊢
    by_cases above : row = draft.row - 1
    · subst above
      obtain rfl := Option.some.inj (found.symm.trans here)
      omega
    · omega

/-! ## Strides -/

/-- A motion leads to the nearest stop ahead, and from a last position nowhere. -/
def Strides (terminals : List Char) (draft : Draft) (motion : Motion)
    (ahead : Position → Position → Prop) (bound : Position) : Prop :=
  ∀ desired, ∃ there, draft.target (wordStepOver terminals) desired motion = some there ∧
    (draft.position = bound → there = bound) ∧
    (draft.position ≠ bound →
      Position.Nearest (draft.IsStop terminals) ahead draft.position there)

/-- To the right, each motion goes to the next stop, up to the last. -/
theorem strides_right (terminals : List Char) (draft : Draft) :
    draft.Strides terminals .wordRight Position.Before draft.last := by
  intro desired
  have width := draft.length_current
  have inside := draft.row_lt_length_lines
  by_cases inLine : draft.column < draft.current.length
  · refine ⟨_, congrArg some (if_pos inLine), fun last => ?_, fun _ => nearest_right inLine⟩
    exact absurd (position_eq_last_iff.mp last).2 (Nat.ne_of_lt inLine)
  · have atEnd : draft.column = draft.current.length := by omega
    refine ⟨_, congrArg some (if_neg inLine), ?_⟩
    rw [onward]
    by_cases more : draft.row + 1 < draft.lines.length
    · rw [if_pos more]
      refine ⟨fun last => ?_, fun _ => nearest_onward atEnd more⟩
      exact absurd (position_eq_last_iff.mp last).1 (Nat.ne_of_lt more)
    · rw [if_neg more]
      have last : draft.position = draft.last := position_eq_last_iff.mpr ⟨by omega, atEnd⟩
      exact ⟨id, fun other => absurd last other⟩

/-- To the left, each motion goes to the stop before, down to the first. -/
theorem strides_left (terminals : List Char) (draft : Draft) :
    draft.Strides terminals .wordLeft Position.Behind Position.zero := by
  intro desired
  by_cases inLine : 0 < draft.column
  · refine ⟨_, congrArg some (if_pos inLine), fun first => ?_, fun _ => nearest_left inLine⟩
    exact absurd (position_eq_zero_iff.mp first).2 (Nat.ne_of_gt inLine)
  · have atStart : draft.column = 0 := by omega
    refine ⟨_, congrArg some (if_neg inLine), ?_⟩
    rw [backward]
    by_cases more : 0 < draft.row
    · rw [if_pos more]
      refine ⟨fun first => ?_, fun _ => nearest_backward atStart more⟩
      exact absurd (position_eq_zero_iff.mp first).1 (Nat.ne_of_gt more)
    · rw [if_neg more]
      have first : draft.position = Position.zero := position_eq_zero_iff.mpr ⟨by omega, atStart⟩
      exact ⟨id, fun other => absurd first other⟩

end Draft

namespace Editor

variable {κ : Type}

/-- A position that word motion stops at. -/
def IsStop (editor : Editor κ) (position : Position) : Prop :=
  IsWordStop editor.options.wordTerminals editor.lineChars? position

variable [Coordinate κ]

/-- From a position a motion goes to the nearest stop ahead, except from the last one.
From a stop the opposite motion leads back, and the motion again and again gets to the
last position. -/
structure WalksStops (editor : Editor κ) (motion opposite : Motion)
    (ahead : Position → Position → Prop) (bound here : Position) : Prop where
  goes : ∃ next there, editor.move motion = .ok next ∧ next.position = .ok there ∧
    (∀ row, next.lineChars? row = editor.lineChars? row) ∧ (there = here ↔ here = bound) ∧
    (here ≠ bound → Position.Nearest editor.IsStop ahead here there)
  returns : editor.IsStop here → here ≠ bound →
    ∃ next last, editor.move motion = .ok next ∧ next.move opposite = .ok last ∧
      last.position = .ok here
  arrives : ∃ count last answers,
    editor.run (List.replicate count (.move motion)) = .ok (last, answers) ∧
      last.position = .ok bound

section Walks

variable {editor : Editor κ} {draft : Draft} {terminals : List Char} {motion opposite : Motion}
  {ahead : Position → Position → Prop} {bound start : Position} {lines : List (List Char)}

theorem Shows.isStop_eq (shows : editor.Shows draft) :
    editor.IsStop = draft.IsStop editor.options.wordTerminals := by
  funext position
  rw [IsStop, Draft.IsStop]
  exact congrArg (fun line? => IsWordStop _ line? position) (funext shows.reads.lines)

/-- After a motion from one position to another of the same document. -/
structure Strode (editor : Editor κ) (draft : Draft) (there : Position) (next : Editor κ) : Prop
    extends Shows next (draft.goTo there) where
  terminals : next.options.wordTerminals = editor.options.wordTerminals
  lines : (draft.goTo there).lines = draft.lines
  arrives : (draft.goTo there).position = there

theorem Shows.strode (shows : editor.Shows draft)
    (known : editor.options.wordTerminals = terminals)
    (strides : draft.Strides terminals motion ahead bound) :
    ∃ next there, editor.move motion = .ok next ∧ editor.Strode draft there next ∧
      (draft.position = bound → there = bound) ∧
      (draft.position ≠ bound →
        Position.Nearest (draft.IsStop terminals) ahead draft.position there) := by
  subst known
  obtain ⟨there, aims, stays, goes⟩ := strides editor.cursor.desiredColumn
  have place : draft.IsPlace there := by
    by_cases home : draft.position = bound
    · rw [stays home, ← home]
      exact draft.isPlace_position
    · obtain ⟨line, found, inside, -⟩ := (goes home).stop
      exact ⟨line, found, inside⟩
  rw [← wordStep_eq] at aims
  obtain ⟨next, moves, settled, lines, arrives⟩ := shows.move_to place aims
  have options := congrArg Options.wordTerminals settled.options
  exact ⟨next, there, moves, ⟨settled.toShows, options, lines, arrives⟩, stays, goes⟩

/-- A motion walks the stops of a document in one direction: it strides wherever the
caret is, and a rank of positions falls with each stride. -/
structure Walks (terminals : List Char) (lines : List (List Char)) (motion : Motion)
    (ahead : Position → Position → Prop) (bound : Position) (rank : Position → Nat) : Prop where
  strides : ∀ draft : Draft, draft.lines = lines → draft.Strides terminals motion ahead bound
  falls : ∀ (draft : Draft) (there : Position), draft.lines = lines →
    Position.Nearest (draft.IsStop terminals) ahead draft.position there →
    rank there < rank draft.position

variable {rank : Position → Nat}

/-- A walk whose measure falls with each motion reaches its bound. -/
theorem Walks.reaches (walks : Walks terminals lines motion ahead bound rank)
    (shows : editor.Shows draft) (same : draft.lines = lines)
    (known : editor.options.wordTerminals = terminals) :
    ∃ count last answers, editor.run (List.replicate count (.move motion)) = .ok (last, answers) ∧
      last.position = .ok bound := by
  induction far : rank draft.position using Nat.strongRecOn generalizing editor draft with
  | ind distance inductionHypothesis =>
      by_cases home : draft.position = bound
      · exact ⟨0, editor, [], rfl, home ▸ shows.position_eq⟩
      · -- Away from the last position a stride lowers the rank.
        obtain ⟨next, there, moves, strode, -, goes⟩ :=
          shows.strode known (walks.strides draft same)
        have nearer := walks.falls draft there same (goes home)
        rw [far, ← strode.arrives] at nearer
        obtain ⟨count, last, answers, runs, ends⟩ := inductionHypothesis _ nearer strode.toShows
          (strode.lines.trans same) (strode.terminals.trans known) rfl
        have steps : editor.step (.move motion) = .ok (next, .done) := by
          rw [Editor.step, moves]
          rfl
        exact ⟨count + 1, last, .done :: answers, run_cons steps runs, ends⟩

/-- Two motions that stride in opposite directions make a walk of either. -/
theorem Shows.walksStops [Std.Asymm ahead] [Std.Trichotomous ahead] (shows : editor.Shows draft)
    (walks : Walks editor.options.wordTerminals draft.lines motion ahead bound rank)
    (back : ∀ other : Draft, other.lines = draft.lines → other.Strides editor.options.wordTerminals
      opposite (fun left right => ahead right left) start)
    (edge : ¬ ahead draft.position start) :
    editor.WalksStops motion opposite ahead bound draft.position := by
  obtain ⟨next, there, moves, strode, stays, goes⟩ := shows.strode rfl (walks.strides draft rfl)
  refine ⟨⟨next, there, moves, ?_, ?_, ?_, ?_⟩, ?_, walks.reaches shows rfl rfl⟩
  · rw [strode.position_eq, strode.arrives]
  · intro row
    rw [strode.toShows.reads.lines, shows.reads.lines]
    exact congrArg (fun lines => lines[row]?) strode.lines
  · constructor
    · rintro rfl
      apply Classical.byContradiction
      intro away
      exact Std.Asymm.asymm _ _ (goes away).beyond (goes away).beyond
    · exact fun home => (stays home).trans home.symm
  · rw [shows.isStop_eq]
    exact goes
  · rw [shows.isStop_eq]
    intro stop away
    have nearest := goes away
    have inner : (draft.goTo there).position ≠ start := by
      rw [strode.arrives]
      rintro rfl
      exact edge nearest.beyond
    obtain ⟨last, home, returns, strodeBack, -, goesBack⟩ :=
      strode.toShows.strode strode.terminals (back _ strode.lines)
    have nearestBack := goesBack inner
    rw [Draft.isStop_congr strode.lines, strode.arrives] at nearestBack
    obtain rfl := nearest.returns stop nearestBack
    refine ⟨next, last, moves, returns, ?_⟩
    rw [strodeBack.position_eq, strodeBack.arrives]

end Walks

/-! ## Both directions -/

section Directions

variable {editor : Editor κ} {draft : Draft}

theorem walks_right (terminals : List Char) (draft : Draft) :
    Walks terminals draft.lines .wordRight Position.Before draft.last
      (fun position => draft.text.length - draft.offsetOf position) where
  strides := by
    intro other same
    rw [← Draft.last_congr same]
    exact Draft.strides_right terminals other
  falls := by
    intro other there same nearest
    obtain ⟨line, found, inside, -⟩ := nearest.stop
    have here := other.getElem?_lines_row
    have width := other.length_current
    rw [same] at found here
    have reach := Draft.offsetOf_le_length found inside
    have further : draft.offsetOf other.position < draft.offsetOf there :=
      Draft.offsetOf_lt here (by simp only [Draft.position]; omega) nearest.beyond
    omega

theorem walks_left (terminals : List Char) (draft : Draft) :
    Walks terminals draft.lines .wordLeft Position.Behind Position.zero draft.offsetOf where
  strides other _ := Draft.strides_left terminals other
  falls := by
    intro other there same nearest
    obtain ⟨line, found, inside, -⟩ := nearest.stop
    rw [same] at found
    exact Draft.offsetOf_lt found inside nearest.beyond

/-- Word motion walks one set of stops in both directions, from wherever the caret is. -/
theorem word_motion_walks_stops (reachable : editor.Reachable) :
    ∃ here, editor.position = .ok here ∧
      editor.WalksStops .wordRight .wordLeft Position.Before editor.documentEnd here ∧
      editor.WalksStops .wordLeft .wordRight Position.Behind Position.zero here := by
  obtain ⟨draft, shows⟩ := reachable.shows
  have right := walks_right editor.options.wordTerminals draft
  have left := walks_left editor.options.wordTerminals draft
  refine ⟨draft.position, shows.position_eq, ?_, ?_⟩
  · rw [shows.documentEnd_eq]
    exact shows.walksStops right left.strides (Draft.not_before_zero draft.position)
  · exact shows.walksStops left right.strides draft.not_behind_last

/-- From the start of a line with two terminals side by side and an empty line below. -/
theorem word_motion_walks_stops_standard :
    ∃ (editor : Editor Float32) (answers : List Answer) (here : Position),
      standard.run [.loadDocument "go.(x)\n", .move .documentStart] = .ok (editor, answers) ∧
      editor.position = .ok here ∧
      editor.WalksStops .wordRight .wordLeft Position.Before editor.documentEnd here ∧
      editor.WalksStops .wordLeft .wordRight Position.Behind Position.zero here := by
  obtain ⟨editor, answers, runs, reachable⟩ := reachable_standard.of_run
    [.loadDocument "go.(x)\n", .move .documentStart] (by decide +kernel)
  obtain ⟨here, position, walks⟩ := word_motion_walks_stops reachable
  exact ⟨editor, answers, here, runs, position, walks⟩

end Directions

end Editor

end EditorCore
