import EditorCore.Proofs.Positions
import EditorCore.Proofs.Reachable

/-!
Contract: character motion enumerates the positions of a document.

Owns:
- the ranks of the places of a document, in the order of the document;
- that a step to the right or to the left changes the rank by one, so that it goes to
  the nearest place and the opposite step leads back;
- that steps to the right from the start of the document visit every place once.

Does not own: where words stop.
-/

namespace EditorCore

namespace Draft

variable {draft other : Draft} {here there position : Position}

/-! ## Ranks -/

/-- How many places come before a position: every separator takes up one character more
than the step across it. -/
def rank (draft : Draft) (position : Position) : Nat := draft.offsetOf position - position.line

theorem rank_congr (same : other.lines = draft.lines) : other.rank = draft.rank := by
  funext position
  rw [rank, rank, offsetOf, offsetOf, startOf, startOf, same]

/-- Lines start at least one character apart. -/
theorem startOf_add_le (draft : Draft) (row count : Nat)
    (inside : row + count ≤ draft.lines.length) :
    draft.startOf row + count ≤ draft.startOf (row + count) := by
  have more := length_le_flow_true ((draft.lines.drop row).take count)
  rw [List.length_take, List.length_drop, Nat.min_eq_left (by omega)] at more
  rw [startOf, startOf, List.take_add, flow_true_append, List.length_append]
  exact Nat.add_le_add_left more _

/-- A place's rank is its offset, with breaks counted as one character. -/
theorem rank_add_line (place : draft.IsPlace position) :
    draft.rank position + position.line = draft.offsetOf position := by
  obtain ⟨line, found, -⟩ := place
  obtain ⟨inside, -⟩ := List.getElem?_eq_some_iff.mp found
  have apart := draft.startOf_add_le 0 position.line (by omega)
  rw [Nat.zero_add] at apart
  rw [rank, offsetOf]
  omega

/-- Ranks are in the order of the document. -/
theorem rank_lt_of_before (first : draft.IsPlace here) (second : draft.IsPlace there)
    (before : here.Before there) : draft.rank here < draft.rank there := by
  have left := rank_add_line first
  have right := rank_add_line second
  rw [offsetOf] at left right
  rcases Position.before_iff.mp before with below | ⟨row, further⟩
  · obtain ⟨line, found, inside⟩ := first
    obtain ⟨later, foundLater, -⟩ := second
    obtain ⟨inLines, -⟩ := List.getElem?_eq_some_iff.mp foundLater
    obtain ⟨more, lines⟩ := Nat.exists_eq_add_of_le (Nat.succ_le_of_lt below)
    -- The lines in between take up at least a character each, the first one's separator two.
    have next := startOf_succ found
    have apart := draft.startOf_add_le (here.line + 1) more (by omega)
    rw [← lines, next, separatorLength] at apart
    omega
  · rw [row] at left
    omega

/-- Different places have different ranks. -/
theorem rank_injective (first : draft.IsPlace here) (second : draft.IsPlace there)
    (same : draft.rank here = draft.rank there) : here = there := by
  rcases Position.before_or_eq_or_before here there with before | equal | behind
  · exact absurd same (Nat.ne_of_lt (rank_lt_of_before first second before))
  · exact equal
  · exact absurd same (Nat.ne_of_gt (rank_lt_of_before second first behind))

theorem rank_zero (draft : Draft) : draft.rank Position.zero = 0 := rfl

/-- All characters count but one of each separator. -/
theorem rank_last (draft : Draft) :
    draft.rank draft.last + draft.lines.length = draft.text.length + 1 := by
  have inside := draft.row_lt_length_lines
  have rank := rank_add_line draft.isPlace_last
  obtain ⟨line, found⟩ := draft.exists_line (draft.lines.length - 1) (by omega)
  have whole := startOf_last found (by omega)
  rw [offsetOf, last, endOf, lengthOf_eq found] at rank
  rw [last, endOf, lengthOf_eq found]
  simp only at rank ⊢
  omega

theorem rank_le_last (place : draft.IsPlace position) :
    draft.rank position ≤ draft.rank draft.last := by
  obtain ⟨line, found, inside⟩ := place
  have ends := (draft.goTo position).not_behind_last
  rw [position_goTo found inside, last_congr (lines_goTo found)] at ends
  rcases Position.before_or_eq_or_before position draft.last with before | equal | behind
  · exact Nat.le_of_lt (rank_lt_of_before ⟨line, found, inside⟩ draft.isPlace_last before)
  · exact Nat.le_of_eq (congrArg draft.rank equal)
  · exact absurd behind ends

/-! ## Steps -/

/-- A place comes next after another. -/
structure Follows (draft : Draft) (here there : Position) : Prop where
  source : draft.IsPlace here
  goal : draft.IsPlace there
  rank : draft.rank there = draft.rank here + 1

theorem follows_of_offset (source : draft.IsPlace here) (goal : draft.IsPlace there)
    (next : draft.offsetOf there + here.line = draft.offsetOf here + there.line + 1) :
    draft.Follows here there where
  source
  goal
  rank := by
    rw [← rank_add_line source, ← rank_add_line goal] at next
    omega

/-- What follows a place is the nearest behind it. -/
theorem Follows.nearest (follows : draft.Follows here there) :
    Position.Nearest draft.IsPlace Position.Before here there where
  stop := follows.goal
  beyond := by
    have rank := follows.rank
    rcases Position.before_or_eq_or_before here there with before | rfl | behind
    · exact before
    · omega
    · have lower := rank_lt_of_before follows.goal follows.source behind
      omega
  first := by
    intro other place beyond different
    have rank := follows.rank
    have higher := rank_lt_of_before follows.source place beyond
    rcases Position.before_or_eq_or_before there other with before | same | behind
    · exact before
    · exact absurd same.symm different
    · have between := rank_lt_of_before place follows.goal behind
      omega

theorem Follows.nearest_back (follows : draft.Follows here there) :
    Position.Nearest draft.IsPlace Position.Behind there here :=
  follows.nearest.back follows.source

/-- A motion aims at a place, whatever column is remembered and however far words go. -/
def AimsAt (draft : Draft) (motion : Motion) (there : Position) : Prop :=
  draft.IsPlace there ∧ ∀ step desired, draft.target step desired motion = some there

/-- Before the end there is a place to the right, and it follows. -/
theorem exists_right (more : draft.position ≠ draft.last) :
    ∃ there, draft.AimsAt .right there ∧ draft.Follows draft.position there := by
  have width := draft.length_current
  by_cases inLine : draft.column < draft.current.length
  · have place : draft.IsPlace { line := draft.row, column := draft.column + 1 } :=
      ⟨draft.current, draft.getElem?_lines_row, inLine⟩
    refine ⟨_, ⟨place, fun _ _ => congrArg some (if_pos inLine)⟩, ?_⟩
    apply follows_of_offset draft.isPlace_position place
    simp only [offsetOf, position]
    omega
  · have inside := draft.row_lt_length_lines
    have notLast : draft.row + 1 ≠ draft.lines.length :=
      fun last => more (position_eq_last_iff.mpr ⟨last, by omega⟩)
    obtain ⟨line, found⟩ := draft.exists_line (draft.row + 1) (by omega)
    have place : draft.IsPlace { line := draft.row + 1, column := 0 } :=
      ⟨line, found, Nat.zero_le _⟩
    refine ⟨_, ⟨place, fun _ _ => ?_⟩, ?_⟩
    · rw [target, if_neg inLine, onward, if_pos (by omega)]
    -- The separator is two characters long and adds one line.
    · apply follows_of_offset draft.isPlace_position place
      simp only [offsetOf, position, startOf_succ draft.getElem?_lines_row, separatorLength]
      omega

/-- After the start there is a place to the left, which the caret's follows. -/
theorem exists_left (more : draft.position ≠ Position.zero) :
    ∃ there, draft.AimsAt .left there ∧ draft.Follows there draft.position := by
  have width := draft.length_current
  by_cases inLine : 0 < draft.column
  · have place : draft.IsPlace { line := draft.row, column := draft.column - 1 } :=
      ⟨draft.current, draft.getElem?_lines_row, by simp only; omega⟩
    refine ⟨_, ⟨place, fun _ _ => congrArg some (if_pos inLine)⟩, ?_⟩
    apply follows_of_offset place draft.isPlace_position
    simp only [offsetOf, position]
    omega
  · have inside := draft.row_lt_length_lines
    have notFirst : draft.row ≠ 0 :=
      fun first => more (position_eq_zero_iff.mpr ⟨first, by omega⟩)
    obtain ⟨line, found⟩ := draft.exists_line (draft.row - 1) (by omega)
    have place : draft.IsPlace (draft.endOf (draft.row - 1)) :=
      ⟨line, found, Nat.le_of_eq (lengthOf_eq found)⟩
    refine ⟨_, ⟨place, fun _ _ => ?_⟩, ?_⟩
    · rw [target, if_neg inLine, backward, if_pos (by omega)]
    · apply follows_of_offset place draft.isPlace_position
      have across := startOf_succ found
      rw [Nat.sub_add_cancel (by omega), separatorLength] at across
      simp only [offsetOf, position, endOf, lengthOf_eq found]
      omega

/-- A motion aims at the nearest place ahead, and from a last position nowhere else. -/
def Steps (draft : Draft) (motion : Motion) (ahead : Position → Position → Prop)
    (bound : Position) : Prop :=
  ∃ there, draft.AimsAt motion there ∧ (draft.position = bound → there = bound) ∧
    (draft.position ≠ bound → Position.Nearest draft.IsPlace ahead draft.position there)

/-- To the right, places are taken one after the other up to the last. -/
theorem steps_right (draft : Draft) : draft.Steps .right Position.Before draft.last := by
  by_cases home : draft.position = draft.last
  · obtain ⟨row, column⟩ := position_eq_last_iff.mp home
    refine ⟨draft.position, ⟨draft.isPlace_position, fun _ _ => ?_⟩, id, fun away => ?_⟩
    · rw [target, if_neg (Nat.not_lt.mpr (Nat.le_of_eq column.symm)), onward,
        if_neg (Nat.not_lt.mpr (Nat.le_of_eq row.symm))]
    · exact absurd home away
  · obtain ⟨there, aims, follows⟩ := exists_right home
    exact ⟨there, aims, fun last => absurd last home, fun _ => follows.nearest⟩

/-- To the left, places are taken one after the other down to the first. -/
theorem steps_left (draft : Draft) : draft.Steps .left Position.Behind Position.zero := by
  by_cases home : draft.position = Position.zero
  · obtain ⟨row, column⟩ := position_eq_zero_iff.mp home
    refine ⟨draft.position, ⟨draft.isPlace_position, fun _ _ => ?_⟩, id, fun away => ?_⟩
    · rw [target, if_neg (Nat.not_lt.mpr (Nat.le_of_eq column)), backward,
        if_neg (Nat.not_lt.mpr (Nat.le_of_eq row))]
    · exact absurd home away
  · obtain ⟨there, aims, follows⟩ := exists_left home
    exact ⟨there, aims, fun first => absurd first home, fun _ => follows.nearest_back⟩

/-- What leads up to a caret never ends in the middle of a separator. -/
theorem getLast?_leading_ne (unbroken : draft.UnbrokenLines) :
    draft.leading.getLast? ≠ some '\r' := by
  obtain ⟨-, before, -, -⟩ := unbrokenLines_iff.mp unbroken
  intro returns
  rw [leading, List.getLast?_append, Option.or_eq_some_iff] at returns
  rcases returns with inLine | ⟨-, above⟩
  · exact (isBreak_eq_false_iff.mp (before _ (List.mem_of_getLast? inLine))).1 rfl
  · rcases List.eq_nil_or_concat draft.above with none | ⟨higher, line, split⟩
    · simp [none] at above
    · rw [split, List.concat_eq_append, flow_true_append, flow_true_cons] at above
      simp [separator] at above

end Draft

namespace Editor

variable {κ : Type}

/-- The caret is between the two characters of a separator. -/
def InsideBreak (editor : Editor κ) : Prop :=
  ∃ offset, editor.cursor.caret = offset + 1 ∧ editor.buffer.charAt offset = some '\r' ∧
    editor.buffer.charAt (offset + 1) = some '\n'

variable [Coordinate κ]

/-- Calls that nothing stops end at a position. -/
def GetsTo (editor : Editor κ) (calls : List (Call κ)) (position : Position) : Prop :=
  ∃ last answers, editor.run calls = .ok (last, answers) ∧ last.position = .ok position

/-- From a position a motion goes to the nearest place ahead, except from the last one,
and never stops inside a break.  The opposite motion leads back. -/
structure StepsPlaces (editor : Editor κ) (motion opposite : Motion)
    (ahead : Position → Position → Prop) (bound here : Position) : Prop where
  goes : ∃ next there, editor.move motion = .ok next ∧ next.position = .ok there ∧
    (∀ row, next.lineChars? row = editor.lineChars? row) ∧ (there = here ↔ here = bound) ∧
    (here ≠ bound → Position.Nearest editor.IsPlace ahead here there) ∧ ¬ next.InsideBreak
  returns : here ≠ bound →
    ∃ next last, editor.move motion = .ok next ∧ next.move opposite = .ok last ∧
      last.position = .ok here

/-- To the start of the document and so many characters on. -/
def onwardCalls (count : Nat) : List (Call κ) :=
  .move .documentStart :: List.replicate count (.move .right)

/-- So many steps from the start of the document to its end stop at every place once. -/
structure VisitsPlaces (editor : Editor κ) (count : Nat) : Prop where
  number : count + editor.lines.size = editor.buffer.length + 1
  stops : ∀ index ≤ count, ∃ place, editor.IsPlace place ∧ editor.GetsTo (onwardCalls index) place
  once : ∀ place, editor.IsPlace place → ∃ index ≤ count, editor.GetsTo (onwardCalls index) place ∧
    ∀ other ≤ count, editor.GetsTo (onwardCalls other) place → other = index
  ends : ∃ place, editor.GetsTo [.move .documentEnd] place ∧
    editor.GetsTo (onwardCalls count) place

section Steps

variable {editor : Editor κ} {draft : Draft} {motion opposite : Motion}
  {ahead : Position → Position → Prop} {bound start there place other : Position}
  {calls : List (Call κ)}

theorem Shows.not_insideBreak (shows : editor.Shows draft) : ¬ editor.InsideBreak := by
  rintro ⟨offset, caret, returns, -⟩
  have reach : draft.leading.length = offset + 1 := by
    rw [draft.length_leading, ← shows.caret, caret]
  apply Draft.getLast?_leading_ne shows.unbroken
  rw [Buffer.charAt_eq, shows.text, draft.text_eq, List.getElem?_append_left (by omega)] at returns
  rw [List.getLast?_eq_getElem?, reach]
  exact returns

theorem GetsTo.unique (gets : editor.GetsTo calls place) (another : editor.GetsTo calls other) :
    other = place := by
  obtain ⟨last, answers, runs, ends⟩ := gets
  obtain ⟨_, _, runsAgain, endsAgain⟩ := another
  obtain ⟨rfl, rfl⟩ := Prod.mk.inj (Except.ok.inj (runsAgain.symm.trans runs))
  exact Except.ok.inj (endsAgain.symm.trans ends)

/-- A motion that aims at a place gets there and leaves the lines as they are. -/
theorem Shows.move_place (shows : editor.Shows draft) (aims : draft.AimsAt motion there) :
    ∃ next, editor.move motion = .ok next ∧ next.Shows (draft.goTo there) ∧
      (draft.goTo there).lines = draft.lines ∧ (draft.goTo there).position = there := by
  obtain ⟨next, moves, settled, arrived⟩ := shows.move_to aims.1 (aims.2 _ _)
  exact ⟨next, moves, settled.toShows, arrived⟩

/-- The step lemma: a motion that aims at a place takes the caret there and leaves the lines
alone. -/
theorem Shows.step_place (shows : editor.Shows draft) (aims : draft.AimsAt motion there) :
    ∃ next, editor.step (.move motion) = .ok (next, .done) ∧ next.Shows (draft.goTo there) ∧
      (draft.goTo there).lines = draft.lines ∧ (draft.goTo there).position = there := by
  obtain ⟨next, moves, arrived⟩ := shows.move_place aims
  refine ⟨next, ?_, arrived⟩
  rw [Editor.step, moves]
  rfl

/-- Two motions that step in opposite directions undo each other. -/
theorem Shows.stepsPlaces [Std.Asymm ahead] [Std.Trichotomous ahead] (shows : editor.Shows draft)
    (goes : draft.Steps motion ahead bound)
    (back : ∀ other : Draft, other.lines = draft.lines →
      other.Steps opposite (fun left right => ahead right left) start)
    (edge : ¬ ahead draft.position start) :
    editor.StepsPlaces motion opposite ahead bound draft.position := by
  obtain ⟨there, aims, stays, nearest⟩ := goes
  obtain ⟨next, moves, nextShows, lines, arrives⟩ := shows.move_place aims
  constructor
  · refine ⟨next, there, moves, ?_, ?_, ?_, ?_, nextShows.not_insideBreak⟩
    · rw [nextShows.position_eq, arrives]
    · intro row
      rw [nextShows.reads.lines, shows.reads.lines]
      exact congrArg (fun lines => lines[row]?) lines
    · constructor
      · rintro rfl
        apply Classical.byContradiction
        intro away
        exact Std.Asymm.asymm _ _ (nearest away).beyond (nearest away).beyond
      · exact fun home => (stays home).trans home.symm
    · rw [shows.isPlace_eq]
      exact nearest
  · intro away
    have beyond := (nearest away).beyond
    obtain ⟨home, aimsBack, -, nearestBack⟩ := back _ lines
    rw [arrives, Draft.isPlace_congr lines] at nearestBack
    have inner : there ≠ start := by
      rintro rfl
      exact edge beyond
    obtain rfl := (nearest away).returns draft.isPlace_position (nearestBack inner)
    obtain ⟨last, returns, lastShows, -, arrivesBack⟩ := nextShows.move_place aimsBack
    refine ⟨next, last, moves, returns, ?_⟩
    rw [lastShows.position_eq, arrivesBack]

/-! ## Visiting every place -/

/-- Every step to the right raises the rank by one. -/
theorem Shows.run_right (count : Nat) :
    ∀ {editor : Editor κ} {draft : Draft}, editor.Shows draft →
      draft.rank draft.position + count ≤ draft.rank draft.last →
      ∃ place, draft.IsPlace place ∧ draft.rank place = draft.rank draft.position + count ∧
        editor.GetsTo (List.replicate count (.move .right)) place := by
  induction count with
  | zero =>
      intro editor draft shows _
      exact ⟨draft.position, draft.isPlace_position, rfl, editor, [], rfl, shows.position_eq⟩
  | succ count inductionHypothesis =>
      intro editor draft shows inside
      have more : draft.position ≠ draft.last := by
        intro last
        rw [last] at inside
        omega
      obtain ⟨there, aims, follows⟩ := Draft.exists_right more
      obtain ⟨next, steps, nextShows, lines, arrives⟩ := shows.step_place aims
      have rest := inductionHypothesis nextShows (by
        rw [Draft.rank_congr lines, Draft.last_congr lines, arrives, follows.rank]
        omega)
      rw [Draft.isPlace_congr lines, Draft.rank_congr lines, arrives, follows.rank] at rest
      obtain ⟨place, isPlace, rank, last, answers, runs, ends⟩ := rest
      exact ⟨place, isPlace, by omega, last, .done :: answers, run_cons steps runs, ends⟩

/-- The steps from the start of the document are counted by the ranks of the places that
they lead to. -/
theorem Shows.getsTo_onward (shows : editor.Shows draft) {count : Nat}
    (inside : count ≤ draft.rank draft.last) :
    ∃ place, draft.IsPlace place ∧ draft.rank place = count ∧
      editor.GetsTo (onwardCalls count) place := by
  obtain ⟨line, found⟩ := draft.exists_line 0 (Nat.zero_lt_of_lt draft.row_lt_length_lines)
  have aims : draft.AimsAt .documentStart Position.zero :=
    ⟨⟨line, found, Nat.zero_le _⟩, fun _ _ => rfl⟩
  obtain ⟨first, steps, firstShows, lines, arrives⟩ := shows.step_place aims
  have onward := firstShows.run_right count (by
    rw [Draft.rank_congr lines, Draft.last_congr lines, arrives, Draft.rank_zero]
    omega)
  rw [Draft.isPlace_congr lines, Draft.rank_congr lines, arrives, Draft.rank_zero] at onward
  obtain ⟨place, isPlace, rank, last, answers, runs, ends⟩ := onward
  exact ⟨place, isPlace, by omega, last, .done :: answers, run_cons steps runs, ends⟩

theorem Shows.getsTo_rank (shows : editor.Shows draft) (isPlace : draft.IsPlace place) :
    editor.GetsTo (onwardCalls (draft.rank place)) place := by
  obtain ⟨reached, isReached, rank, gets⟩ := shows.getsTo_onward (Draft.rank_le_last isPlace)
  rwa [Draft.rank_injective isReached isPlace rank] at gets

/-- Going right from the start visits every place once. -/
theorem Shows.visitsPlaces (shows : editor.Shows draft) :
    editor.VisitsPlaces (draft.rank draft.last) where
  number := by
    rw [shows.size, shows.length]
    exact draft.rank_last
  stops := by
    intro index inside
    obtain ⟨place, isPlace, -, gets⟩ := shows.getsTo_onward inside
    rw [shows.isPlace_eq]
    exact ⟨place, isPlace, gets⟩
  once := by
    intro place isPlace
    rw [shows.isPlace_eq] at isPlace
    refine ⟨draft.rank place, Draft.rank_le_last isPlace, shows.getsTo_rank isPlace, ?_⟩
    intro other inside gets
    obtain ⟨reached, -, rank, getsThere⟩ := shows.getsTo_onward inside
    rw [getsThere.unique gets, rank]
  ends := by
    have aims : draft.AimsAt .documentEnd draft.last := ⟨draft.isPlace_last, fun _ _ => rfl⟩
    obtain ⟨last, steps, lastShows, -, arrives⟩ := shows.step_place aims
    refine ⟨draft.last, ⟨last, [.done], run_cons steps rfl, ?_⟩,
      shows.getsTo_rank draft.isPlace_last⟩
    rw [lastShows.position_eq, arrives]

end Steps

/-- Character motion goes from each place of the document to the next, back and forth,
and through all of them from the start to the end. -/
theorem character_motion_enumerates_places {editor : Editor κ} (reachable : editor.Reachable) :
    ∃ here count, editor.position = .ok here ∧
      editor.StepsPlaces .right .left Position.Before editor.documentEnd here ∧
      editor.StepsPlaces .left .right Position.Behind Position.zero here ∧
      editor.VisitsPlaces count := by
  obtain ⟨draft, shows⟩ := reachable.shows
  refine ⟨draft.position, _, shows.position_eq, ?_, ?_, shows.visitsPlaces⟩
  · rw [shows.documentEnd_eq]
    exact shows.stepsPlaces draft.steps_right (fun other _ => other.steps_left)
      (Draft.not_before_zero draft.position)
  · refine shows.stepsPlaces draft.steps_left (fun other same => ?_) draft.not_behind_last
    rw [← Draft.last_congr same]
    exact other.steps_right

/-- At the end of a line, with an empty line below. -/
theorem character_motion_enumerates_places_standard :
    ∃ (editor : Editor Float32) (answers : List Answer) (here : Position) (count : Nat),
      standard.run [.loadDocument "go\r\n\nx", .moveToPosition { line := 0, column := 2 }] =
        .ok (editor, answers) ∧
      editor.position = .ok here ∧
      editor.StepsPlaces .right .left Position.Before editor.documentEnd here ∧
      editor.StepsPlaces .left .right Position.Behind Position.zero here ∧
      editor.VisitsPlaces count := by
  obtain ⟨editor, answers, runs, reachable⟩ := reachable_standard.of_run
    [.loadDocument "go\r\n\nx", .moveToPosition { line := 0, column := 2 }] (by decide +kernel)
  obtain ⟨here, count, position, visits⟩ := character_motion_enumerates_places reachable
  exact ⟨editor, answers, here, count, runs, position, visits⟩

end Editor

end EditorCore
