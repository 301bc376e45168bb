import EditorCore.Proofs.Courses

/-!
Contract: the caret blinks by the frames since the last operation.

Owns:
- the courses of a run, and the frames that have passed since the last of them that
  ended an operation;
- `Blink.after`, the blink some frames after an operation, and one more frame;
- that the caret of every run shows by these frames, and which frames toggle it;
- that a line up from the first row is no operation, so a hidden caret stays hidden.

Does not own: where the caret is drawn.
-/

namespace EditorCore

/-! ## Frames -/

namespace Course

/-- The frames since the last operation, one course later. -/
def frames (before : Nat) : Course → Nat
  | .ends => 0
  | .ticks => before + 1
  | .rests | .fetches => before

/-- The frames since the last operation of some courses, or since their beginning. -/
def idleFrames (courses : List Course) : Nat := courses.foldl frames 0

example : idleFrames [.ticks, .ends, .ticks, .rests, .fetches, .ticks] = 2 := by decide

end Course

namespace Blink

/-- The blink some frames after an operation. -/
def after (frames : Nat) : Blink where
  visible := frames / blinkTicks % 2 = 0
  timer := frames % blinkTicks

theorem after_zero : after 0 = fresh := rfl

/-- One more frame.  The visibility changes when the frames are a multiple of the
ticks of a phase. -/
theorem tick_after (frames : Nat) :
    (after frames).tick = (after (frames + 1), decide ((frames + 1) % blinkTicks = 0)) := by
  unfold tick after blinkTicks
  by_cases full : 45 ≤ frames % 45 + 1
  · have timer : (frames + 1) % 45 = 0 := by omega
    have phase : (!decide (frames / 45 % 2 = 0)) = decide ((frames + 1) / 45 % 2 = 0) := by
      rw [← decide_not, decide_eq_decide]
      omega
    rw [if_pos full, phase, timer]
    rfl
  · have timer : (frames + 1) % 45 = frames % 45 + 1 := by omega
    have phase : (frames + 1) / 45 = frames / 45 := by omega
    rw [if_neg full, phase, timer]
    rfl

end Blink

namespace Editor

variable {κ : Type} [Coordinate κ] {editor next last : Editor κ} {draft : Draft}
  {calls : List (Call κ)} {answers : List Answer}

/-! ## Runs -/

/-- What becomes of the calls of a run. -/
def courses (editor : Editor κ) : List (Call κ) → Checked (List Course)
  | [] => .ok []
  | call :: later => do
      let (next, answer) ← editor.step call
      return editor.course call answer :: (← next.courses later)

/-- A course lets the blink go on by its frames. -/
theorem Shows.blink_of_step {call : Call κ} {answer : Answer} {frames : Nat}
    (shows : editor.Shows draft) (blink : editor.blink = Blink.after frames)
    (steps : editor.step call = .ok (next, answer)) :
    next.blink = Blink.after ((editor.course call answer).frames frames) := by
  obtain ⟨target, turns, presents⟩ := shows.turns steps
  have same : next.blink = target.blink := congrArg Manuscript.blink presents.manuscript_eq
  have before : (editor.manuscript draft).blink = Blink.after frames := blink
  rw [same]
  generalize editor.course call answer = course at turns
  cases turns with
  | rests afterTypedCr => exact before
  | ends afterTypedCr ending sticks => exact Blink.after_zero.symm
  | ticks afterTypedCr =>
      change (editor.manuscript draft).blink.tick.1 = Blink.after (frames + 1)
      rw [before, Blink.tick_after]
  | fetches afterTypedCr => exact before

/-- The run lemma: the blink counts the frames since the last call that restarts it. -/
theorem Reachable.blink_of_run {frames : Nat} (reachable : editor.Reachable)
    (blink : editor.blink = Blink.after frames) (runs : editor.run calls = .ok (last, answers)) :
    ∃ courses, editor.courses calls = .ok courses ∧
      last.blink = Blink.after (courses.foldl Course.frames frames) := by
  induction calls generalizing editor frames answers with
  | nil =>
      obtain ⟨rfl, rfl⟩ := Prod.mk.inj (Except.ok.inj runs)
      exact ⟨[], rfl, blink⟩
  | cons call later inductionHypothesis =>
      obtain ⟨next, answer, rest, steps, goesOn, rfl⟩ := exists_of_run_cons runs
      obtain ⟨draft, shows⟩ := reachable.shows
      obtain ⟨courses, comes, ends⟩ :=
        inductionHypothesis (.stepped reachable steps) (shows.blink_of_step blink steps) goesOn
      refine ⟨editor.course call answer :: courses, ?_, ends⟩
      rw [Editor.courses, steps]
      change (next.courses later >>= _) = _
      rw [comes]
      rfl

theorem Shows.isSome_caretRect (shows : editor.Shows draft) :
    ∃ rect, editor.caretRect true = .ok rect ∧ (rect.isSome ↔ editor.blink.visible = true) := by
  rw [caretRect, Bool.true_and]
  by_cases visible : editor.blink.visible = true
  · rw [if_pos visible, shows.currentLine_eq]
    exact ⟨_, rfl, iff_of_true rfl visible⟩
  · rw [if_neg visible]
    exact ⟨none, rfl, iff_of_false Bool.false_ne_true visible⟩

/-- With the focus, the caret shows in every other stretch of 45 frames since the
last operation, and the frames that end a stretch toggle it. -/
theorem caret_blinks {settings : Settings κ} {metrics : GlyphMetrics κ}
    (word : settings.capacity ≤ Word.largest) (creates : create settings metrics = .ok editor)
    (runs : editor.run calls = .ok (last, answers)) :
    ∃ courses, editor.courses calls = .ok courses ∧
      (∃ rect, last.caretRect true = .ok rect ∧
        (rect.isSome ↔ Course.idleFrames courses / 45 % 2 = 0)) ∧
      (last.tick.2 = true ↔ (Course.idleFrames courses + 1) % 45 = 0) := by
  have created : editor.Reachable := .created word creates
  obtain rfl := create_eq creates
  obtain ⟨courses, comes, blink⟩ := created.blink_of_run Blink.after_zero.symm runs
  obtain ⟨draft, shows⟩ := (created.last runs).shows
  obtain ⟨rect, draws, some⟩ := shows.isSome_caretRect
  refine ⟨courses, comes, ⟨rect, draws, ?_⟩, ?_⟩
  · rw [some, blink]
    exact decide_eq_true_iff
  · rw [tick, blink, Blink.tick_after]
    exact decide_eq_true_iff

/-- A key, and then frames until the caret goes away. -/
theorem caret_blinks_standard :
    ∃ (last : Editor Float32) (answers : List Answer) (courses : List Course),
      (Settings.standard : Settings Float32).capacity ≤ Word.largest ∧
      create Settings.standard (GlyphMetrics.monospace GlyphMetrics.standardCell) =
        .ok standard ∧
      standard.run (.insertChar 'a' :: List.replicate 45 .tick) = .ok (last, answers) ∧
      standard.courses (.insertChar 'a' :: List.replicate 45 .tick) = .ok courses ∧
      (∃ rect, last.caretRect true = .ok rect ∧
        (rect.isSome ↔ Course.idleFrames courses / 45 % 2 = 0)) ∧
      (last.tick.2 = true ↔ (Course.idleFrames courses + 1) % 45 = 0) := by
  have word : (Settings.standard : Settings Float32).capacity ≤ Word.largest := by decide
  obtain ⟨last, answers, runs, -⟩ :=
    reachable_standard.of_run (.insertChar 'a' :: List.replicate 45 .tick) (by decide +kernel)
  obtain ⟨courses, comes, blinks⟩ := caret_blinks word rfl runs
  exact ⟨last, answers, courses, word, rfl, runs, comes, blinks⟩

/-- On the first row a motion that is asked for may leave the caret hidden. -/
theorem caret_hidden_after_up :
    ∃ (last : Editor Float32) (answers : List Answer),
      standard.run (List.replicate 45 .tick ++ [.move .up]) = .ok (last, answers) ∧
        last.caretRect true = .ok none := by
  have hidden : (standard.run (List.replicate 45 .tick ++ [.move .up])).toOption.any
      (fun ends => !ends.1.blink.visible) = true := by decide +kernel
  obtain ⟨⟨last, answers⟩, runs, away⟩ := (Option.any_eq_true _ _).mp hidden
  refine ⟨last, answers, eq_ok_of_toOption runs, ?_⟩
  rw [Bool.not_eq_true'] at away
  rw [caretRect, away]
  rfl

end Editor

end EditorCore
