import EditorCore.Proofs.Courses
import EditorCore.Proofs.Positions

/-!
Contract: going up and down keeps to one column.

Owns:
- the calls of vertical motion with what may come between them, and the row that
  each of them leads to;
- that a remembered column sticks in every editor that calls lead to;
- that vertical motion ends in the column it set out from, or at the end of a line
  too short for it.

Does not own: how wide columns are drawn.
-/

namespace EditorCore

/-! ## Vertical motion -/

namespace Request

variable {κ : Type}

/-- A request for the line above or below, or one that neither changes the text nor
moves the caret. -/
def isVertical : Request κ → Bool
  | .go .up | .go .down | .arrange _ _ | .colour _ | .frame | .fetch => true
  | _ => false

/-- The row that such a request leads to. -/
def rowFrom (count row : Nat) : Request κ → Nat
  | .go .up => row - 1
  | .go .down => min (row + 1) (count - 1)
  | _ => row

theorem rowFrom_lt {count row : Nat} (request : Request κ) (inside : row < count) :
    request.rowFrom count row < count := by
  unfold rowFrom
  split <;> omega

end Request

namespace Call

variable {κ : Type}

def isVertical (call : Call κ) : Bool := (call.request false).isVertical

def rowFrom (count row : Nat) (call : Call κ) : Nat := (call.request false).rowFrom count row

/-- What vertical motion asks for does not depend on what was typed. -/
theorem request_of_isVertical {call : Call κ} (vertical : call.isVertical = true)
    (afterCr : Bool) : call.request afterCr = call.request false := by
  cases call with
  | onCharacter char =>
      have typed : (Request.ofTyped false char : Request κ).isVertical = true := vertical
      unfold Request.ofTyped at typed
      repeat' split at typed
      all_goals exact absurd typed Bool.false_ne_true
  | loadAnswer answer => cases answer <;> rfl
  | _ => rfl

end Call

namespace Editor

variable {κ : Type} [Coordinate κ] {editor : Editor κ} {draft : Draft} {column : Nat}
  {calls : List (Call κ)}

/-! ## The remembered column -/

/-- A remembered column sticks after every call. -/
theorem Reachable.sticks (reachable : editor.Reachable) :
    ∃ draft, editor.Shows draft ∧ draft.Sticks editor.cursor.desiredColumn := by
  induction reachable with
  | created word creates =>
      rw [create_eq creates]
      exact ⟨Draft.blank, shows_blank _ word, Draft.sticks_none _⟩
  | @stepped editor next call answer _ steps inductionHypothesis =>
      obtain ⟨draft, shows, sticks⟩ := inductionHypothesis
      obtain ⟨target, turns, presents⟩ := shows.turns steps
      have same : next.cursor.desiredColumn = target.desiredColumn :=
        congrArg Manuscript.desiredColumn presents.manuscript_eq
      refine ⟨target.draft, presents.toShows, ?_⟩
      rw [same]
      generalize editor.course call answer = course at turns
      cases turns with
      | rests afterTypedCr => exact sticks
      | ends afterTypedCr ending endSticks => exact endSticks
      | ticks afterTypedCr => exact sticks
      | fetches afterTypedCr => exact sticks

/-! ## One request -/

/-- Vertical motion keeps to a column: the caret is in it or at the end of its line,
and it is the one to go on with. -/
structure KeepsTo (editor : Editor κ) (draft : Draft) (column : Nat) : Prop
    extends Shows editor draft where
  remembers : editor.cursor.desiredColumn.getD draft.column = column
  sticks : draft.column = min column draft.current.length

theorem Shows.keepsTo (shows : editor.Shows draft)
    (sticks : draft.Sticks editor.cursor.desiredColumn) :
    editor.KeepsTo draft (editor.cursor.desiredColumn.getD draft.column) where
  toShows := shows
  remembers := rfl
  sticks := by
    cases remembered : editor.cursor.desiredColumn with
    | none =>
        have width := draft.length_current
        change draft.column = min draft.column _
        omega
    | some column => exact sticks column remembered

theorem KeepsTo.vertical_row (keeps : editor.KeepsTo draft column) :
    draft.vertical (some column) draft.row = draft.position := by
  rw [Draft.vertical, Draft.lengthOf_eq draft.getElem?_lines_row, Option.getD_some, ← keeps.sticks]
  rfl

/-- Arriving on another row of vertical motion. -/
theorem KeepsTo.arrives (keeps : editor.KeepsTo draft column) {row : Nat}
    (inside : row < draft.lines.length) {outcome : Checked (Editor κ)}
    (arrives : editor.Arrives draft (some (editor.cursor.desiredColumn.getD draft.column))
      (draft.vertical editor.cursor.desiredColumn row) outcome) :
    ∃ next, outcome = .ok next ∧
      next.KeepsTo (draft.goTo (draft.vertical (some column) row)) column := by
  obtain ⟨line, found⟩ := draft.exists_line row inside
  have aims : draft.vertical editor.cursor.desiredColumn row =
      draft.vertical (some column) row := by
    rw [Draft.vertical, Draft.vertical, keeps.remembers]
    rfl
  have sticks := Draft.sticks_vertical found (some column)
  rw [aims, keeps.remembers] at arrives
  obtain ⟨next, rfl, settled⟩ := arrives
  have remembered : next.cursor.desiredColumn = some column :=
    congrArg Surroundings.desiredColumn settled.around
  refine ⟨next, rfl, settled.toShows, ?_, sticks column rfl⟩
  rw [remembered]
  rfl

/-- An editor that shows the same and remembers the same keeps to the same column. -/
theorem KeepsTo.of_same {next : Editor κ} (keeps : editor.KeepsTo draft column)
    (shows : next.Shows draft)
    (same : next.cursor.desiredColumn = editor.cursor.desiredColumn) :
    next.KeepsTo (draft.goTo (draft.vertical (some column) draft.row)) column := by
  rw [keeps.vertical_row, Draft.goTo_position]
  refine ⟨shows, ?_, keeps.sticks⟩
  rw [same]
  exact keeps.remembers

theorem KeepsTo.perform {request : Request κ} (keeps : editor.KeepsTo draft column)
    (vertical : request.isVertical = true) :
    ∃ next, editor.perform request = .ok next ∧
      next.KeepsTo (draft.goTo (draft.vertical (some column)
        (request.rowFrom draft.lines.length draft.row))) column := by
  have inside := draft.row_lt_length_lines
  cases request with
  | go motion =>
      cases motion with
      | up =>
          have moves := keeps.toShows.move .up
          rw [Draft.target] at moves
          by_cases more : 0 < draft.row
          · rw [if_pos more] at moves
            rw [Request.rowFrom]
            exact keeps.arrives (by omega) moves
          · rw [if_neg more] at moves
            have row : draft.row - 1 = draft.row := by omega
            rw [Request.rowFrom, row]
            exact ⟨editor, moves, keeps.of_same keeps.toShows rfl⟩
      | down =>
          have moves := keeps.toShows.move .down
          rw [Draft.target] at moves
          by_cases more : draft.row + 1 < draft.lines.length
          · rw [if_pos more] at moves
            have row : min (draft.row + 1) (draft.lines.length - 1) = draft.row + 1 := by omega
            rw [Request.rowFrom, row]
            exact keeps.arrives more moves
          · rw [if_neg more] at moves
            have row : min (draft.row + 1) (draft.lines.length - 1) = draft.row := by omega
            rw [Request.rowFrom, row]
            exact ⟨editor, moves, keeps.of_same keeps.toShows rfl⟩
      | _ => exact absurd vertical Bool.false_ne_true
  | arrange x y => exact ⟨editor.setOrigin x y, rfl, keeps.of_same (keeps.setOrigin x y) rfl⟩
  | colour words =>
      obtain ⟨next, colours, shows, around⟩ := keeps.setKeywords words
      exact ⟨next, colours, keeps.of_same shows (congrArg Surroundings.desiredColumn around)⟩
  | frame => exact ⟨editor.tick.1, rfl, keeps.of_same keeps.tick rfl⟩
  | fetch => exact ⟨editor.pollEvents.1, rfl, keeps.of_same keeps.pollEvents rfl⟩
  | nothing => exact absurd vertical Bool.false_ne_true
  | edit edit => exact absurd vertical Bool.false_ne_true
  | load text => exact absurd vertical Bool.false_ne_true
  | place position => exact absurd vertical Bool.false_ne_true
  | point x y => exact absurd vertical Bool.false_ne_true

theorem KeepsTo.step {call : Call κ} (keeps : editor.KeepsTo draft column)
    (vertical : call.isVertical = true) :
    ∃ next answer, editor.step call = .ok (next, answer) ∧
      next.KeepsTo (draft.goTo (draft.vertical (some column)
        (call.rowFrom draft.lines.length draft.row))) column := by
  have heard : (editor.heard call).KeepsTo draft column :=
    ⟨keeps.withTypedCr _, keeps.remembers, keeps.sticks⟩
  obtain ⟨next, performs, keepsNext⟩ := heard.perform vertical
  have same := editor.step_eq_perform call
  rw [Call.request_of_isVertical vertical, performs] at same
  cases steps : editor.step call with
  | error fault =>
      rw [steps] at same
      exact absurd same nofun
  | ok pair =>
      rw [steps] at same
      obtain rfl := Except.ok.inj same
      exact ⟨pair.1, pair.2, rfl, keepsNext⟩

/-! ## Runs -/

/-- The row that vertical motion leads to from another row. -/
def rowAlong (count row : Nat) (calls : List (Call κ)) : Nat :=
  calls.foldl (Call.rowFrom count) row

theorem KeepsTo.run (keeps : editor.KeepsTo draft column)
    (vertical : ∀ call ∈ calls, call.isVertical = true) :
    ∃ last answers, editor.run calls = .ok (last, answers) ∧
      last.KeepsTo (draft.goTo (draft.vertical (some column)
        (rowAlong draft.lines.length draft.row calls))) column := by
  induction calls generalizing editor draft with
  | nil =>
      refine ⟨editor, [], rfl, ?_⟩
      change editor.KeepsTo (draft.goTo (draft.vertical (some column) draft.row)) column
      rw [keeps.vertical_row, Draft.goTo_position]
      exact keeps
  | cons call later inductionHypothesis =>
      obtain ⟨here, others⟩ := List.forall_mem_cons.mp vertical
      obtain ⟨next, answer, steps, keepsNext⟩ := keeps.step here
      obtain ⟨last, answers, runs, keepsLast⟩ := inductionHypothesis keepsNext others
      refine ⟨last, answer :: answers, run_cons steps runs, ?_⟩
      -- The rest of the run sets out from the row reached, in the same document.
      let row := call.rowFrom draft.lines.length draft.row
      obtain ⟨line, found⟩ := draft.exists_line row
        (Request.rowFrom_lt _ draft.row_lt_length_lines)
      have foundThere : draft.lines[(draft.vertical (some column) row).line]? = some line := found
      have lines := Draft.lines_goTo foundThere
      have reached : (draft.goTo (draft.vertical (some column) row)).row = row :=
        Draft.row_seek found
      have same (target : Nat) : (draft.goTo (draft.vertical (some column) row)).vertical
          (some column) target = draft.vertical (some column) target := by
        rw [Draft.vertical, Draft.lengthOf, lines]
        rfl
      rw [lines, reached, same, Draft.goTo_goTo foundThere] at keepsLast
      exact keepsLast

omit [Coordinate κ] in
theorem rowAlong_lt {count row : Nat} (inside : row < count) (calls : List (Call κ)) :
    rowAlong count row calls < count := by
  induction calls generalizing row with
  | nil => exact inside
  | cons call later inductionHypothesis =>
      exact inductionHypothesis (Request.rowFrom_lt _ inside)

/-- Where vertical motion from a position leads. -/
def climbed (editor : Editor κ) (start : Position) (calls : List (Call κ)) : Position :=
  let row := rowAlong editor.lines.size start.line calls
  { line := row
    column := min (editor.cursor.desiredColumn.getD start.column) (editor.lineLength row) }

/-- A remembered column is that of the caret wherever the line reaches it, and going
up and down any number of times keeps to it, or to the column of the caret if none is
remembered.  Back on the first line the caret is where it was. -/
theorem column_sticks (reachable : editor.Reachable) :
    ∃ start, editor.position = .ok start ∧
      (∀ column, editor.cursor.desiredColumn = some column →
        start.column = min column (editor.lineLength start.line)) ∧
      ∀ calls : List (Call κ), (∀ call ∈ calls, call.isVertical = true) →
        ∃ last answers, editor.run calls = .ok (last, answers) ∧
          (∀ row, last.lineChars? row = editor.lineChars? row) ∧
          last.position = .ok (editor.climbed start calls) ∧
          ((editor.climbed start calls).line = start.line →
            editor.climbed start calls = start) := by
  obtain ⟨draft, shows, sticks⟩ := reachable.sticks
  have keeps := shows.keepsTo sticks
  have length : editor.lineLength draft.row = draft.current.length := by
    rw [shows.lineLength_eq, Draft.lengthOf_eq draft.getElem?_lines_row]
  refine ⟨draft.position, shows.position_eq, ?_, ?_⟩
  · intro column remembered
    change draft.column = min column (editor.lineLength draft.row)
    rw [length]
    exact sticks column remembered
  · intro calls vertical
    obtain ⟨last, answers, runs, keepsLast⟩ := keeps.run vertical
    have leads : editor.climbed draft.position calls =
        draft.vertical (some (editor.cursor.desiredColumn.getD draft.column))
          (rowAlong draft.lines.length draft.row calls) := by
      rw [climbed, shows.size, shows.lineLength_eq]
      rfl
    rw [← leads] at keepsLast
    obtain ⟨line, found⟩ := draft.exists_line (editor.climbed draft.position calls).line (by
      rw [leads]
      exact rowAlong_lt draft.row_lt_length_lines calls)
    have inside : (editor.climbed draft.position calls).column ≤ line.length := by
      have length := shows.lineLength_eq (editor.climbed draft.position calls).line
      rw [Draft.lengthOf_eq found] at length
      rw [← length]
      exact Nat.min_le_right _ _
    refine ⟨last, answers, runs, ?_, ?_, ?_⟩
    · intro row
      rw [keepsLast.toShows.reads.lines, shows.reads.lines]
      exact congrArg (fun lines => lines[row]?) (Draft.lines_goTo found)
    · rw [keepsLast.toShows.position_eq, Draft.position_goTo found inside]
    · intro home
      rw [leads] at home ⊢
      have row : rowAlong draft.lines.length draft.row calls = draft.row := home
      rw [row]
      exact keeps.vertical_row

/-- Down over a shorter line and up again. -/
theorem column_sticks_shorter :
    ∃ (editor last : Editor Float32) (loads answers : List Answer),
      standard.run [.loadDocument "ab\n\nabc", .moveToPosition { line := 0, column := 2 }] =
        .ok (editor, loads) ∧
      editor.run [.move .down, .tick, .move .down, .move .up, .pollEvents, .move .up] =
        .ok (last, answers) ∧
      editor.position = .ok { line := 0, column := 2 } ∧
      last.position = .ok { line := 0, column := 2 } := by
  have facts : (standard.run
      [.loadDocument "ab\n\nabc", .moveToPosition { line := 0, column := 2 }]).toOption.any
      (fun ends => decide (ends.1.lines.size = 3) &&
        decide (ends.1.position.toOption = some { line := 0, column := 2 })) = true := by
    decide +kernel
  obtain ⟨⟨editor, loads⟩, found, holds⟩ := (Option.any_eq_true _ _).mp facts
  rw [Bool.and_eq_true, decide_eq_true_eq, decide_eq_true_eq] at holds
  obtain ⟨size, there⟩ := holds
  have loaded := eq_ok_of_toOption found
  have begins := eq_ok_of_toOption there
  obtain ⟨start, position, -, climbs⟩ := column_sticks (reachable_standard.last loaded)
  obtain rfl := Except.ok.inj (begins.symm.trans position)
  obtain ⟨last, answers, runs, -, ends, back⟩ :=
    climbs [.move .down, .tick, .move .down, .move .up, .pollEvents, .move .up] (by decide)
  refine ⟨editor, last, loads, answers, loaded, runs, begins, ends.trans ?_⟩
  rw [back]
  change rowAlong editor.lines.size 0 _ = 0
  rw [size]
  rfl

end Editor

end EditorCore
