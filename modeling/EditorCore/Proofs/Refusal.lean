import EditorCore.Proofs.Gauging
import EditorCore.Proofs.Reachable

/-!
Contract: a call that is turned down changes nothing.

Owns:
- `Editor.CountsExactly`, that the checks made before loading, pasting and Enter
  count what these put, so that nothing is refused half-way;
- `EditError.Full`, the refusal of what passes the capacity, and that a document is
  refused for nothing else;
- that no refusal leaves a trace, on every editor that calls lead to.

Does not own: which calls are turned down.
-/

namespace EditorCore

variable {κ : Type}

/-! ## Texts that are too long -/

/-- A refusal that names the capacity, and a length that passes it. -/
def EditError.Full (capacity : Nat) (refusal : EditError) : Prop :=
  ∃ required, capacity < required ∧ refusal = .capacityExceeded required capacity

/-- A change either keeps the capacity or is refused for it. -/
def Bounded {α : Type} (capacity : Nat) (room : α → Nat) : Except EditError α → Prop
  | .ok changed => room changed = capacity
  | .error refusal => refusal.Full capacity

/-- An insertion is refused for its length only. -/
theorem Buffer.gives_bounded (buffer : Buffer) (offset : Nat) (run : List Char) :
    Gives (Bounded buffer.capacity Buffer.capacity) (buffer.insert offset run) := by
  unfold Buffer.insert
  refine Gives.step fun outcome asks => ?_
  cases outcome with
  | error refusal =>
      unfold Buffer.ensureRoom Buffer.remaining at asks
      split at asks
      · cases asks
      · rename_i tight
        obtain ⟨required, counts, ends⟩ := exists_of_bind asks
        obtain rfl := Except.error.inj (Except.ok.inj ends)
        unfold Word.add at counts
        split at counts
        · obtain rfl := Except.ok.inj counts
          exact .ok ⟨_, by omega, rfl⟩
        · cases counts
  | ok room =>
      dsimp only
      split
      · exact .ok rfl
      · exact .error

namespace Editor

variable [Coordinate κ] {capacity : Nat} {editor : Editor κ}

/-- The capacity of an editor's text. -/
def room (editor : Editor κ) : Nat := editor.buffer.capacity

theorem gives_bounded_insertRun (same : editor.room = capacity) (run : List Char) :
    Gives (Bounded capacity room) (editor.insertRun run) := by
  unfold insertRun
  split
  · exact .ok same
  · refine (editor.buffer.gives_bounded editor.cursor.caret run).bind fun outcome inserts => ?_
    subst same
    cases outcome with
    | error refusal => exact .ok inserts
    | ok buffer => exact .ok inserts

theorem gives_bounded_splitLine (same : editor.room = capacity) :
    Gives (Bounded capacity room) editor.splitLine := by
  refine (editor.buffer.gives_bounded editor.cursor.caret separator).bind fun outcome inserts => ?_
  subst same
  cases outcome with
  | error refusal => exact .ok inserts
  | ok buffer => exact Gives.step fun ⟨lines, index⟩ _ => Gives.step fun opened _ => .ok inserts

/-- Streaming is refused for its length only, line by line. -/
theorem gives_full_streamLines (pieces : List (List Char)) :
    ∀ {editor : Editor κ}, editor.room = capacity →
      Gives (fun pair => ∀ refusal, pair.2 = .error refusal → refusal.Full capacity)
        (editor.streamLines pieces) := by
  induction pieces with
  | nil => exact fun _ => .ok nofun
  | cons piece later inductionHypothesis =>
      intro editor same
      refine (gives_bounded_splitLine same).bind fun outcome splits => ?_
      cases outcome with
      | error refusal => exact .ok fun _ fails => Except.error.inj fails ▸ splits
      | ok opened =>
          refine (gives_bounded_insertRun splits piece).bind fun outcome fills => ?_
          cases outcome with
          | error refusal => exact .ok fun _ fails => Except.error.inj fails ▸ fills
          | ok filled => exact inductionHypothesis fills

theorem gives_full_streamSegments (same : editor.room = capacity) (pieces : List (List Char)) :
    Gives (fun pair => ∀ refusal, pair.2 = .error refusal → refusal.Full capacity)
      (editor.streamSegments pieces) := by
  cases pieces with
  | nil => exact .ok nofun
  | cons first later =>
      refine (gives_bounded_insertRun same first).bind fun outcome fills => ?_
      cases outcome with
      | error refusal => exact .ok fun _ fails => Except.error.inj fails ▸ fills
      | ok filled => exact gives_full_streamLines later fills

/-- A document is refused for its length only. -/
theorem gives_full_loadDocument (same : editor.room = capacity) (text : String) :
    Gives (fun pair => ∀ refusal, pair.2 = .error refusal → refusal.Full capacity)
      (editor.loadDocument text) := by
  subst same
  change Gives _ (if _ then _ else _)
  split
  · rename_i full
    refine .ok ?_
    rintro _ ⟨⟩
    exact ⟨_, full, rfl⟩
  · let cleared := { editor with
      ending := LineEnding.detect text.toList
      buffer := editor.buffer.clear
      lines := editor.lines.reset
      cursor := Cursor.ofOffset 0 0 }
    have kept : cleared.room = editor.room := rfl
    refine Gives.bind (gives_full_streamSegments kept (segments text.toList)) fun outcome fills => ?_
    obtain ⟨filled, result⟩ := outcome
    cases result with
    | error refusal => exact .ok fills
    | ok done => exact Gives.step fun relexed _ => Gives.step fun finished _ => .ok nofun

/-- A text is refused for its length only. -/
theorem full_of_withText {settings : Settings κ} {metrics : GlyphMetrics κ} {text : String}
    {refusal : EditError} (refuses : withText settings metrics text = .ok (.error refusal)) :
    refusal.Full settings.capacity := by
  obtain ⟨editor, creates, continues⟩ := exists_of_bind refuses
  obtain ⟨⟨loaded, outcome⟩, loads, ends⟩ := exists_of_bind continues
  have same : editor.room = settings.capacity := by
    obtain ⟨-, -, makes⟩ := exists_of_bind creates
    obtain rfl := Except.ok.inj makes
    rfl
  cases outcome with
  | ok done => cases Except.ok.inj ends
  | error cause =>
      obtain rfl := Except.error.inj (Except.ok.inj ends)
      exact gives_full_loadDocument same text _ loads _ rfl

end Editor

/-! ## Calls that are turned down -/

namespace Editor

variable {editor : Editor κ} {draft : Draft}

/-- The check passes only where there is room. -/
theorem Holds.fits_of_ensureRoom (holds : editor.Holds draft) {additional : Nat}
    (passes : editor.buffer.ensureRoom additional = .ok (.ok ())) :
    draft.text.length + additional ≤ editor.buffer.capacity := by
  apply Nat.le_of_not_lt
  intro full
  rw [holds.ensureRoom_of_full full] at passes
  exact ifWord_error_ne passes

variable [Coordinate κ]

/-- What passes the check made beforehand is put to the last character. -/
structure CountsExactly (editor : Editor κ) : Prop where
  paste : ∀ text : String,
    editor.buffer.ensureRoom (joinedLength (segments text.toList)) = .ok (.ok ()) →
      ∃ filled, editor.streamSegments (segments text.toList) = .ok (filled, .ok ()) ∧
        filled.buffer.length = editor.buffer.length + joinedLength (segments text.toList)
  load : ∀ text : String, joinedLength (segments text.toList) ≤ editor.buffer.capacity →
    ∃ filled, (editor.cleared text).streamSegments (segments text.toList) =
        .ok (filled, .ok ()) ∧
      filled.buffer.length = joinedLength (segments text.toList)
  enter : ∀ level,
    editor.buffer.ensureRoom (separatorLength + level * editor.options.indentUnit.length) =
        .ok (.ok ()) →
      ∃ opened indented, editor.splitLine = .ok (.ok opened) ∧
        opened.insertUnits level = .ok indented ∧
        indented.buffer.length =
          editor.buffer.length + (separatorLength + level * editor.options.indentUnit.length)

/-- The checks count what is put, on every draft. -/
theorem Shows.countsExactly (shows : editor.Shows draft) : editor.CountsExactly where
  paste := by
    intro text passes
    obtain ⟨filled, stale, line, streams, laid, -⟩ :=
      shows.laid.streamSegments (shows.fits_of_ensureRoom passes)
    refine ⟨filled, streams, ?_⟩
    rw [laid.length, shows.length, Draft.length_text_pasted draft (segments_ne_nil text.toList)]
  load := by
    intro text fits
    obtain ⟨filled, stale, line, streams, laid, -⟩ := shows.streamDocument fits
    refine ⟨filled, streams, ?_⟩
    rw [laid.length, Draft.length_text_pasted _ (segments_ne_nil text.toList)]
    exact Nat.zero_add _
  enter := by
    intro level passes
    obtain ⟨opened, indented, cut, line, splits, inserts, laid, -⟩ :=
      shows.openUnits level (shows.fits_of_ensureRoom passes)
    refine ⟨opened, indented, splits, inserts, ?_⟩
    rw [laid.length, shows.length, Draft.length_text_typed, Draft.length_text_opened,
      Draft.length_indentation, Nat.add_assoc]

/-- A call that is turned down leaves every component as it was, up to the memory
of a typed CR, and nothing is ever turned down after the first change. -/
theorem refusal_keeps (reachable : editor.Reachable) :
    (∀ (call : Call κ) (next : Editor κ) (answer : Answer), ¬ call.IsTick →
      editor.step call = .ok (next, answer) → answer.Refuses → call.Keeps editor next) ∧
    editor.CountsExactly := by
  obtain ⟨draft, shows⟩ := reachable.shows
  refine ⟨?_, shows.countsExactly⟩
  intro call next answer other steps refuses
  have sound := shows.step call
  rw [steps] at sound
  exact sound.2 refuses other

/-- A new editor with room for five characters. -/
def cramped : Editor Float32 :=
  ofSettings { Settings.standard with capacity := 5 }
    (GlyphMetrics.monospace GlyphMetrics.standardCell)

/-- Between two lines of four characters there is room for neither a break nor a paste
of two more. -/
theorem refusal_keeps_cramped :
    ∃ (editor : Editor Float32) (answers : List Answer),
      cramped.run [.loadDocument "a\nb", .move .left] = .ok (editor, answers) ∧
      editor.text = "a\r\nb" ∧
      editor.step .insertLine = .ok (editor, .applied false) ∧
      editor.step (.paste "xy") = .ok (editor, .pasted (.error (.capacityExceeded 6 5))) ∧
      editor.CountsExactly := by
  have creates : create { Settings.standard with capacity := 5 }
      (GlyphMetrics.monospace GlyphMetrics.standardCell) = .ok cramped := rfl
  have created : cramped.Reachable := .created (by decide) creates
  obtain ⟨editor, answers, runs, reachable, text, entered, pasted⟩ := created.of_run_to
    [.loadDocument "a\nb", .move .left]
    (fun editor => editor.text = "a\r\nb" ∧
      (editor.step .insertLine).toOption.any (fun pair => decide (pair.2 = .applied false)) =
        true ∧
      (editor.step (.paste "xy")).toOption.any
        (fun pair => decide (pair.2 = .pasted (.error (.capacityExceeded 6 5)))) = true)
    (by decide +kernel)
  obtain ⟨keeps, counts⟩ := refusal_keeps reachable
  obtain ⟨afterEnter, enters⟩ := exists_of_result entered
  obtain ⟨afterPaste, pastes⟩ := exists_of_result pasted
  obtain rfl : afterEnter = editor := keeps _ _ _ id enters rfl
  obtain rfl : afterPaste = afterEnter := keeps _ _ _ id pastes trivial
  exact ⟨afterPaste, answers, runs, text, enters, pastes, counts⟩

end Editor

end EditorCore
