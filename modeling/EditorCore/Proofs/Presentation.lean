import EditorCore.Proofs.Manuscript
import EditorCore.Proofs.Saving

/-!
Contract: presentation never influences editing.

Owns:
- `View`, everything that can be read off an editor but its looks;
- `Editor.chronicle`, what a run reports and shows after each call;
- that the chronicle of a run without a pointer is the one of its manuscript, so
  that two runs of editors that edit alike have the same chronicle, however their
  documents look and whenever that changes.

Does not own: where a pointer points, which is a matter of looks.
-/

namespace EditorCore

variable {κ : Type}

/-! ## Views -/

/-- The spans of texts that stand one after the other. -/
def spansFrom : Nat → Nat → List (List Char) → List (Nat × Nat × Nat × Nat)
  | _, _, [] => []
  | index, start, text :: later =>
      (index, start, start + text.length, start + leadingBlanks text) ::
        spansFrom (index + 1) (start + text.length + separatorLength) later

/-- What can be read off an editor but its looks. -/
structure View where
  text : String
  saved : String
  /-- What copying the line of the caret gives. -/
  copied : Clipboard → Checked (Except EditError Clipboard)
  spans : List (Nat × Nat × Nat × Nat)
  caret : Nat
  position : Position
  indentLevel : Nat
  desiredColumn : Option Nat
  visible : Bool
  pending : List CursorEvent

/-- The calls that choose how a document looks. -/
def Call.isDressing : Call κ → Bool
  | .setOrigin _ _ | .setKeywords _ => true
  | _ => false

/-- The calls that place the caret by a pointer. -/
def Call.isPointing : Call κ → Bool
  | .moveToPoint _ _ | .onMouseDown _ _ | .handle (.mouseDown _ _) => true
  | _ => false

/-- Settings that edit alike. -/
structure Settings.EditsAs (settings others : Settings κ) : Prop where
  capacity : settings.capacity = others.capacity
  tabSize : settings.tabSize = others.tabSize
  indentWithTabs : settings.indentWithTabs = others.indentWithTabs
  autoIndent : settings.autoIndent = others.autoIndent
  multiline : settings.multiline = others.multiline
  wordTerminals : settings.wordTerminals = others.wordTerminals

theorem Settings.EditsAs.indentUnit {settings others : Settings κ}
    (edits : settings.EditsAs others) : settings.indentUnit = others.indentUnit := by
  rw [Settings.indentUnit, Settings.indentUnit, edits.indentWithTabs, edits.tabSize]

namespace Manuscript

def view (manuscript : Manuscript) : View where
  text := String.ofList (joined manuscript.draft.lines)
  saved := String.ofList (joinedBy manuscript.ending manuscript.draft.lines)
  copied clipboard :=
    match clipboard.write (String.ofList manuscript.draft.current) with
    | .error cause => .ok (.error (.clipboard cause))
    | .ok written => .ok (.ok written)
  spans := spansFrom 0 0 manuscript.draft.lines
  caret := manuscript.draft.offset
  position := manuscript.draft.position
  indentLevel :=
    indentUnits manuscript.rules.tabSize (manuscript.draft.current.takeWhile isBlank)
  desiredColumn := manuscript.desiredColumn
  visible := manuscript.blink.visible
  pending := manuscript.watch.pending

/-- What calls report and what shows after each, and what shows at the end. -/
def chronicle (aim : Draft → κ → κ → Position) :
    Manuscript → List (Call κ) → Checked (List (Answer × View) × View)
  | manuscript, [] => .ok ([], manuscript.view)
  | manuscript, call :: later => do
      let (next, answer) ← manuscript.step aim call
      let (reports, last) ← chronicle aim next later
      return ((answer, next.view) :: reports, last)

/-- Only a pointer asks where it points. -/
theorem step_of_not_isPointing (manuscript : Manuscript) (aim other : Draft → κ → κ → Position)
    {call : Call κ} (keyboard : call.isPointing = false) :
    manuscript.step aim call = manuscript.step other call := by
  cases call with
  | onMouseDown x y => exact absurd keyboard (by simp [Call.isPointing])
  | moveToPoint x y => exact absurd keyboard (by simp [Call.isPointing])
  | handle message =>
      cases message with
      | mouseDown x y => exact absurd keyboard (by simp [Call.isPointing])
      | _ => rfl
  | onKey key => cases key <;> rfl
  | loadAnswer answer => cases answer <;> rfl
  | _ => rfl

theorem step_of_isDressing (manuscript : Manuscript) (aim : Draft → κ → κ → Position)
    {call : Call κ} (dresses : call.isDressing = true) :
    manuscript.step aim call = .ok (manuscript, .done) := by
  cases call with
  | setOrigin x y => rfl
  | setKeywords words => rfl
  | _ => exact absurd dresses (by simp [Call.isDressing])

end Manuscript

/-! ## Editors -/

theorem map_span_ruled [Coordinate κ] (look : Look κ) (closed : Bool) (index start : Nat)
    (texts : List (List Char)) :
    (ruled look.rule closed index start texts).map Line.span = spansFrom index start texts := by
  induction texts generalizing index start with
  | nil => rfl
  | cons text later inductionHypothesis =>
      rw [ruled, List.map_cons, inductionHypothesis]
      rfl

namespace Editor

variable [Coordinate κ] {editor : Editor κ} {manuscript : Manuscript}

def view (editor : Editor κ) : Checked View := do
  return {
    text := editor.text
    saved := editor.textForSave
    copied := editor.copyLineTo
    spans := editor.lines.lines.map Line.span
    caret := editor.cursor.caret
    position := ← editor.position
    indentLevel := editor.cursor.indentLevel
    desiredColumn := editor.cursor.desiredColumn
    visible := editor.blink.visible
    pending := editor.watch.pending }

/-- What a run reports and what shows after each call, and what shows at the end.
Calls that only choose looks are passed over. -/
def chronicle : Editor κ → List (Call κ) → Checked (List (Answer × View) × View)
  | editor, [] => do return ([], ← editor.view)
  | editor, call :: later => do
      let (next, answer) ← editor.step call
      let view ← next.view
      let (reports, last) ← chronicle next later
      return (if call.isDressing then reports else (answer, view) :: reports, last)

theorem Presents.copyLineTo_eq (presents : editor.Presents manuscript) :
    editor.copyLineTo = manuscript.view.copied := by
  funext clipboard
  have current : editor.charsOf (editor.look.rule manuscript.draft.row manuscript.draft.start
      manuscript.draft.current (!manuscript.draft.below.isEmpty)) = manuscript.draft.current :=
    presents.slice_current
  rw [copyLineTo, presents.currentLine_eq, Manuscript.view]
  change (match clipboard.write (String.ofList (editor.charsOf _)) with
    | .error cause => _
    | .ok written => _) = _
  rw [current]
  rfl

/-- All that can be read off an editor is in its manuscript. -/
theorem Presents.view_eq (presents : editor.Presents manuscript) :
    editor.view = .ok manuscript.view := by
  have ending : editor.ending = manuscript.ending :=
    congrArg Manuscript.ending presents.manuscript_eq
  have spans : editor.lines.lines.map Line.span = spansFrom 0 0 manuscript.draft.lines := by
    rw [presents.table, map_span_ruled]
  have tabSize : editor.options.tabSize = manuscript.rules.tabSize :=
    congrArg (fun other => other.rules.tabSize) presents.manuscript_eq
  have desiredColumn : editor.cursor.desiredColumn = manuscript.desiredColumn :=
    congrArg Manuscript.desiredColumn presents.manuscript_eq
  have blink : editor.blink = manuscript.blink :=
    congrArg Manuscript.blink presents.manuscript_eq
  have watch : editor.watch = manuscript.watch :=
    congrArg Manuscript.watch presents.manuscript_eq
  rw [view, presents.position_eq, presents.text_eq, presents.textForSave_eq, ending,
    presents.copyLineTo_eq, spans, presents.caret, presents.indentLevel, tabSize, desiredColumn,
    blink, watch]
  rfl

theorem Presents.tracks (presents : editor.Presents manuscript) (call : Call κ) :
    Tracks (editor.step call) (manuscript.step editor.pointed call) := by
  have tracks := presents.toShows.tracks call
  rwa [presents.manuscript_eq] at tracks

/-- Without a pointer, a run says of an editor what it says of its manuscript, and
choosing looks might as well be left out. -/
theorem Presents.chronicle_eq (presents : editor.Presents manuscript)
    (aim : Draft → κ → κ → Position) {calls : List (Call κ)}
    (keyboard : ∀ call ∈ calls, call.isPointing = false) :
    editor.chronicle calls =
      manuscript.chronicle aim (calls.filter fun call => !call.isDressing) := by
  induction calls generalizing editor manuscript with
  | nil =>
      rw [chronicle, presents.view_eq]
      rfl
  | cons call later inductionHypothesis =>
      obtain ⟨first, others⟩ := List.forall_mem_cons.mp keyboard
      have tracks := presents.tracks call
      rw [manuscript.step_of_not_isPointing editor.pointed aim first] at tracks
      rw [chronicle]
      cases dresses : call.isDressing with
      | true =>
          rw [manuscript.step_of_isDressing aim dresses] at tracks
          obtain ⟨next, steps, nextPresents⟩ := tracks
          rw [List.filter_cons_of_neg (by simp [dresses]),
            ← inductionHypothesis nextPresents others, steps]
          change (do
            let view ← next.view
            let (reports, last) ← next.chronicle later
            return (reports, last)) = _
          rw [nextPresents.view_eq]
          cases next.chronicle later <;> rfl
      | false =>
          rw [List.filter_cons_of_pos (by simp [dresses]), Manuscript.chronicle]
          cases expected : manuscript.step aim call with
          | error fault =>
              rw [expected] at tracks
              rw [show editor.step call = .error fault from tracks]
              rfl
          | ok pair =>
              rw [expected] at tracks
              obtain ⟨next, steps, nextPresents⟩ := tracks
              rw [steps]
              change (do
                let view ← next.view
                let (reports, last) ← next.chronicle later
                return ((pair.2, view) :: reports, last)) = _
              rw [nextPresents.view_eq, inductionHypothesis nextPresents others]
              rfl

/-- Settings that edit alike make the same manuscript. -/
theorem manuscript_ofSettings {settings others : Settings κ} (edits : settings.EditsAs others)
    (metrics glyphs : GlyphMetrics κ) :
    (ofSettings settings metrics).manuscript Draft.blank =
      (ofSettings others glyphs).manuscript Draft.blank := by
  have rules : (Options.ofSettings settings).rules = (Options.ofSettings others).rules := by
    simp only [Options.rules, Options.ofSettings, edits.indentUnit, edits.tabSize, edits.autoIndent,
      edits.multiline, edits.wordTerminals]
  have capacity : (Buffer.empty settings.capacity).capacity =
      (Buffer.empty others.capacity).capacity := edits.capacity
  unfold manuscript ofSettings
  rw [rules, capacity]

theorem chronicle_create {settings : Settings κ} (metrics : GlyphMetrics κ)
    (aim : Draft → κ → κ → Position) (word : settings.capacity ≤ Word.largest)
    {calls : List (Call κ)} (keyboard : ∀ call ∈ calls, call.isPointing = false) :
    (create settings metrics >>= fun editor => editor.chronicle calls) =
      settings.indentUnit.ensureHeld >>= fun _ =>
        ((ofSettings settings metrics).manuscript Draft.blank).chronicle aim
          (calls.filter fun call => !call.isDressing) := by
  rw [create, ← (shows_blank metrics word).presents.chronicle_eq aim keyboard]
  cases settings.indentUnit.ensureHeld <;> rfl

/-- Two runs of the same calls, up to calls that only choose looks, report the same
and show the same after each call, whatever the glyphs, the sizes, the colours and
the place on the page. -/
theorem presentation_never_influences_editing {settings others : Settings κ}
    {calls otherCalls : List (Call κ)} (metrics glyphs : GlyphMetrics κ)
    (word : settings.capacity ≤ Word.largest) (edits : settings.EditsAs others)
    (keyboard : ∀ call ∈ calls, call.isPointing = false)
    (otherKeyboard : ∀ call ∈ otherCalls, call.isPointing = false)
    (same : (calls.filter fun call => !call.isDressing) =
      otherCalls.filter fun call => !call.isDressing) :
    (create settings metrics >>= fun editor => editor.chronicle calls) =
      create others glyphs >>= fun editor => editor.chronicle otherCalls := by
  have aim : Draft → κ → κ → Position := fun draft _ _ => draft.position
  rw [chronicle_create metrics aim word keyboard,
    chronicle_create glyphs aim (edits.capacity ▸ word) otherKeyboard, same, edits.indentUnit,
    manuscript_ofSettings edits metrics glyphs]

/-- Large letters without colours, on a page of their own. -/
def large : Settings Float32 :=
  { Settings.standard with syntaxHighlight := false, textSize := 40, margin := 3 }

/-- The widget is moved in one run, and keywords are chosen in the other. -/
theorem presentation_never_influences_editing_large :
    (Settings.standard : Settings Float32).EditsAs large ∧
      (create large (GlyphMetrics.monospace 3) >>= fun editor =>
        editor.chronicle [.onCharacter 'a', .setKeywords ["a"], .onKey .enter]).isOk = true ∧
      (create Settings.standard (GlyphMetrics.monospace (10 : Float32)) >>= fun editor =>
          editor.chronicle [.setOrigin 7 9, .onCharacter 'a', .onKey .enter]) =
        create large (GlyphMetrics.monospace 3) >>= fun editor =>
          editor.chronicle [.onCharacter 'a', .setKeywords ["a"], .onKey .enter] := by
  have edits : (Settings.standard : Settings Float32).EditsAs large :=
    ⟨rfl, rfl, rfl, rfl, rfl, rfl⟩
  refine ⟨edits, by decide +kernel,
    presentation_never_influences_editing _ _ (by decide) edits ?_ ?_ rfl⟩
  · simp [Call.isPointing]
  · simp [Call.isPointing]

end Editor

end EditorCore
