import EditorCore.Proofs.ExactPage
import EditorCore.Proofs.Presentation
import EditorCore.Proofs.Settling

/-!
Contract: what metrics lose behind a shared handle.

Owns:
- when metrics behind a handle are the metrics themselves;
- `Editor.Twins`, an editor and one that reaches the same metrics through a handle, with
  one manuscript on one page, and that they stay twins under every call;
- that runs over a handle report and show what runs over the metrics do, pointers
  included, in all but the widths of runs;
- metrics whose widths of runs a handle forgets, and the caret that is misplaced then.

Does not own: how far the caret is from the start of its line in general.
-/

namespace EditorCore

variable {κ : Type} [Coordinate κ]

/-! ## Metrics -/

namespace GlyphMetrics

variable {metrics : GlyphMetrics κ}

/-- A handle changes nothing exactly when runs are as wide as their advances together. -/
theorem shared_eq_iff :
    metrics.shared = metrics ↔
      ∀ run size, metrics.runWidth run size = sumOfAdvances metrics.advance run size := by
  constructor
  · intro same run size
    exact (congrArg (fun other => other.runWidth run size) same).symm
  · intro sums
    have widths : sumOfAdvances metrics.advance = metrics.runWidth := by
      funext run size
      exact (sums run size).symm
    rw [shared, widths]

end GlyphMetrics

/-- What lines are made by when the metrics are reached through a handle. -/
def Look.shared (look : Look κ) : Look κ := { look with metrics := look.metrics.shared }

theorem Request.dress_shared (request : Request κ) (look : Look κ) :
    request.dress look.shared = (request.dress look).shared := by
  cases request <;> rfl

/-! ## Two editors -/

namespace Editor

/-- Two editors with the same manuscript and the same page, the second of which reaches the
metrics of the first through a handle. -/
structure Twins (editor other : Editor κ) (manuscript : Manuscript) : Prop where
  presents : editor.Presents manuscript
  presentsOther : other.Presents manuscript
  look : other.look = editor.look.shared

section Twins

variable {editor other : Editor κ} {manuscript : Manuscript}

/-- A pointer points to the same place, since only single advances are asked there. -/
theorem Twins.pointed_eq (twins : editor.Twins other manuscript) :
    other.pointed = editor.pointed := by
  have layout : other.lines.layout = editor.lines.layout := congrArg Look.layout twins.look
  have advance : other.advance = editor.advance :=
    congrArg (fun look char => look.metrics.advance char look.options.textSize) twins.look
  funext draft x y
  rw [pointed, pointed, layout, advance]

theorem Twins.afterTypedCr_eq (twins : editor.Twins other manuscript) :
    other.afterTypedCr = editor.afterTypedCr :=
  congrArg Manuscript.afterTypedCr
    (twins.presentsOther.manuscript_eq.trans twins.presents.manuscript_eq.symm)

/-- Twins stop at the same calls, and otherwise report the same and stay twins. -/
theorem Twins.step (twins : editor.Twins other manuscript) (call : Call κ) :
    match manuscript.step editor.pointed call with
    | .ok (target, answer) =>
        ∃ next otherNext, editor.step call = .ok (next, answer) ∧
          other.step call = .ok (otherNext, answer) ∧ next.Twins otherNext target
    | .error fault => editor.step call = .error fault ∧ other.step call = .error fault := by
  have tracks := twins.presents.tracks call
  have others := twins.presentsOther.tracks call
  rw [twins.pointed_eq] at others
  cases expected : manuscript.step editor.pointed call with
  | error fault =>
      rw [expected] at tracks others
      exact ⟨tracks, others⟩
  | ok pair =>
      rw [expected] at tracks others
      obtain ⟨next, steps, presents⟩ := tracks
      obtain ⟨otherNext, otherSteps, presentsOther⟩ := others
      refine ⟨next, otherNext, steps, otherSteps, presents, presentsOther, ?_⟩
      rw [twins.presentsOther.look_of_step otherSteps, twins.presents.look_of_step steps,
        twins.afterTypedCr_eq, twins.look, Request.dress_shared]

theorem Twins.chronicle_eq (twins : editor.Twins other manuscript) (calls : List (Call κ)) :
    other.chronicle calls = editor.chronicle calls := by
  induction calls generalizing editor other manuscript with
  | nil => rw [chronicle, chronicle, twins.presents.view_eq, twins.presentsOther.view_eq]
  | cons call later inductionHypothesis =>
      have both := twins.step call
      rw [chronicle, chronicle]
      cases expected : manuscript.step editor.pointed call with
      | error fault =>
          rw [expected] at both
          rw [both.1, both.2]
      | ok pair =>
          rw [expected] at both
          obtain ⟨next, otherNext, steps, otherSteps, nextTwins⟩ := both
          rw [steps, otherSteps]
          change (otherNext.view >>= fun view => otherNext.chronicle later >>= _) =
            next.view >>= fun view => next.chronicle later >>= _
          rw [nextTwins.presents.view_eq, nextTwins.presentsOther.view_eq,
            inductionHypothesis nextTwins]

end Twins

theorem twins_ofSettings {settings : Settings κ} (metrics : GlyphMetrics κ)
    (word : settings.capacity ≤ Word.largest) :
    (ofSettings settings metrics).Twins (ofSettings settings metrics.shared)
      ((ofSettings settings metrics).manuscript Draft.blank) where
  presents := (shows_blank metrics word).presents
  presentsOther := (shows_blank metrics.shared word).presents
  look := rfl

/-- Metrics behind a handle answer for single characters and for texts as the metrics do.
Whatever the calls, pointers included, editors over both report the same and have the same
view after each of them.  The metrics are the same, and with them all widths, exactly if runs
are as wide as their advances together. -/
theorem shared_metrics_forget_runs (settings : Settings κ) (metrics : GlyphMetrics κ)
    (word : settings.capacity ≤ Word.largest) :
    metrics.shared.advance = metrics.advance ∧ metrics.shared.measure = metrics.measure ∧
      (∀ calls : List (Call κ),
        (create settings metrics.shared >>= fun editor => editor.chronicle calls) =
          create settings metrics >>= fun editor => editor.chronicle calls) ∧
      (metrics.shared = metrics ↔
        ∀ run size, metrics.runWidth run size =
          GlyphMetrics.sumOfAdvances metrics.advance run size) := by
  refine ⟨rfl, rfl, ?_, GlyphMetrics.shared_eq_iff⟩
  intro calls
  have same := (twins_ofSettings metrics word).chronicle_eq calls
  rw [create, create]
  cases settings.indentUnit.ensureHeld with
  | error fault => rfl
  | ok held => exact same

/-- Glyphs that advance by one unit each, with a unit of air after each of them in a run. -/
def airy : GlyphMetrics ℚ where
  advance _ _ := 1
  measure text size := (text.length, size)
  runWidth run _ := 2 * run.length

theorem shared_metrics_forget_runs_airy :
    (Settings.standard : Settings ℚ).capacity ≤ Word.largest ∧
      airy.shared.advance = airy.advance ∧
      (create Settings.standard airy.shared >>= fun editor =>
          editor.chronicle [.loadDocument "ab", .moveToPoint 1 0]) =
        create Settings.standard airy >>= fun editor =>
          editor.chronicle [.loadDocument "ab", .moveToPoint 1 0] := by
  have word : (Settings.standard : Settings ℚ).capacity ≤ Word.largest := by decide
  obtain ⟨advances, -, agree, -⟩ := shared_metrics_forget_runs Settings.standard airy word
  exact ⟨word, advances, agree _⟩

/-- Through a handle, a run of such glyphs is half as wide, and after a document of one line
the caret is half as far from the start of the line. -/
theorem shared_metrics_narrow_airy :
    airy.runWidth ['a', 'b'] 12 = 4 ∧ airy.shared.runWidth ['a', 'b'] 12 = 2 ∧
      ∃ direct handled : Editor ℚ, ∃ answers others,
        (ofSettings Settings.standard airy).run [.loadDocument "ab"] = .ok (direct, answers) ∧
        (ofSettings Settings.standard airy.shared).run [.loadDocument "ab"] =
          .ok (handled, others) ∧
        direct.cursor.x = 4 ∧ handled.cursor.x = 2 := by
  have word : (Settings.standard : Settings ℚ).capacity ≤ Word.largest := by decide
  have reachable : ∀ metrics : GlyphMetrics ℚ,
      (ofSettings Settings.standard metrics).Reachable := fun _ => .created word rfl
  obtain ⟨direct, answers, runs, -, far⟩ := (reachable airy).of_run_to [.loadDocument "ab"]
    (fun editor => editor.cursor.x = 4) (by decide +kernel)
  obtain ⟨handled, others, otherRuns, -, near⟩ := (reachable airy.shared).of_run_to
    [.loadDocument "ab"] (fun editor => editor.cursor.x = 2) (by decide +kernel)
  exact ⟨by decide +kernel, by decide +kernel, direct, handled, answers, others, runs, otherRuns,
    far, near⟩

end Editor

end EditorCore
