import EditorCore.Proofs.Breaks
import EditorCore.Proofs.PlainText

/-!
Contract: saving and loading lose nothing.

Owns:
- `Editor.Preserves`, what a loaded document keeps of its text, and exactly when
  saving gives the very text back;
- `Editor.SameLines`, two editors with the same lines;
- that loading a document keeps its text, and that what any editor saves is
  loaded again as the same lines.

Does not own: where saved texts are kept.
-/

namespace EditorCore

/-- A line's place in its table and its offsets. -/
def Line.span {κ : Type} (line : Line κ) : Nat × Nat × Nat × Nat :=
  (line.index, line.start, line.stop, line.indentEnd)

namespace Editor

variable {κ : Type}

/-- The document of an editor is what a text holds, with breaks of the text's
first style when it is saved. -/
structure Preserves (editor : Editor κ) (text : String) : Prop where
  normalised : editor.text = String.ofList (joined (segments text.toList))
  ending : editor.ending = (breaks text.toList).headD .crLf
  saved : editor.textForSave = String.ofList (joinedBy editor.ending (segments text.toList))
  exact : editor.textForSave = text ↔ OneStyle text.toList

/-- Two editors have the same lines: the same characters at the same offsets. -/
structure SameLines (editor other : Editor κ) : Prop where
  spans : ∀ index,
    (editor.lines.get? index).map Line.span = (other.lines.get? index).map Line.span
  texts : ∀ index, editor.lineChars? index = other.lineChars? index

/-- The document that one editor has saved and another one has loaded.  Where both
make lines alike, tokens and places are the same as well. -/
structure Restores [Coordinate κ] (editor next : Editor κ) : Prop extends SameLines next editor where
  text : next.text = editor.text
  saved : next.textForSave = editor.textForSave
  table : next.look = editor.look → next.lines = editor.lines

section

variable {editor other : Editor κ} {draft target : Draft}

theorem Holds.text_eq (holds : editor.Holds draft) :
    editor.text = String.ofList (joined draft.lines) := by
  rw [Editor.text, Buffer.content, holds.text, Draft.text, joined_eq_flow]

variable [Coordinate κ]

/-- Saving writes the lines with breaks of the editor's style. -/
theorem Shows.textForSave_eq (shows : editor.Shows draft) :
    editor.textForSave = String.ofList (joinedBy editor.ending draft.lines) := by
  have rewritten : withEnding editor.ending editor.buffer.toList =
      joinedBy editor.ending draft.lines := by
    rw [shows.text, Draft.text, ← joined_eq_flow, withEnding_joined shows.unbroken]
  unfold textForSave
  split
  · rename_i style
    rw [style, shows.text_eq]
    rfl
  · rw [rewritten]

theorem Shows.sameLines (shows : editor.Shows draft) (others : other.Shows target)
    (lines : draft.lines = target.lines) : editor.SameLines other where
  spans := by
    intro index
    rw [shows.get?_eq, others.get?_eq, Option.map_map, Option.map_map, Draft.startOf,
      Draft.startOf, lines]
    rfl
  texts := by
    intro index
    rw [shows.reads.lines, others.reads.lines, Draft.lines_plain, Draft.lines_plain, lines]

/-- Loading streams the segments into a blank document. -/
theorem lines_loaded (text : String) :
    (Draft.blank.pasted (segments text.toList)).lines = segments text.toList :=
  congrArg PlainText.lines (Draft.plain_loaded text)

theorem Settled.preserves {text : String} {desired : Option Nat}
    (settled : Settled { editor with ending := LineEnding.detect text.toList } other desired
      (Draft.blank.pasted (segments text.toList))) : other.Preserves text := by
  have ending : other.ending = LineEnding.detect text.toList :=
    congrArg Surroundings.ending settled.around
  have saved : other.textForSave =
      String.ofList (joinedBy other.ending (segments text.toList)) := by
    rw [settled.textForSave_eq, lines_loaded]
  exact {
    normalised := by rw [settled.text_eq, lines_loaded]
    ending := by rw [ending, detect_eq_headD]
    saved
    exact := by
      rw [saved, ending, ← joinedBy_segments_iff, ← String.toList_inj, String.toList_ofList] }

theorem Shows.load_preserves (shows : editor.Shows draft) {text : String}
    (fits : joinedLength (segments text.toList) ≤ editor.buffer.capacity) :
    ∃ next, editor.step (.loadDocument text) = .ok (next, .loaded (.ok ())) ∧
      next.Preserves text := by
  obtain ⟨next, loads, settled⟩ := shows.loadDocument fits
  refine ⟨next, ?_, settled.preserves⟩
  rw [Editor.step, loads]
  rfl

theorem Shows.load_restores (shows : editor.Shows draft) (others : other.Shows target)
    (capacity : other.buffer.capacity = editor.buffer.capacity) :
    ∃ next, other.step (.loadDocument editor.textForSave) = .ok (next, .loaded (.ok ())) ∧
      next.look = other.look ∧ editor.Restores next := by
  have saved : editor.textForSave.toList = joinedBy editor.ending draft.lines := by
    rw [shows.textForSave_eq, String.toList_ofList]
  have some : draft.lines ≠ [] := List.ne_nil_of_mem (List.mem_of_getElem? draft.getElem?_lines_row)
  have pieces : segments editor.textForSave.toList = draft.lines := by
    rw [saved, segments_joinedBy shows.unbroken some]
  have alike : OneStyle editor.textForSave.toList := by
    rw [saved, OneStyle, breaks_joinedBy shows.unbroken]
    exact ⟨editor.ending, fun _ => List.eq_of_mem_replicate⟩
  have fits : joinedLength (segments editor.textForSave.toList) ≤ other.buffer.capacity := by
    rw [pieces, ← length_flow_false, capacity]
    exact shows.bounded
  obtain ⟨next, loads, settled⟩ := others.loadDocument fits
  have lines : (Draft.blank.pasted (segments editor.textForSave.toList)).lines = draft.lines := by
    rw [lines_loaded, pieces]
  have preserves := settled.preserves
  refine ⟨next, ?_, congrArg Surroundings.look settled.around, ?_⟩
  · rw [Editor.step, loads]
    rfl
  · exact {
      toSameLines := settled.toShows.sameLines shows lines
      text := by rw [preserves.normalised, pieces, shows.text_eq]
      saved := preserves.exact.mpr alike
      table := fun look => settled.toRepresents.lines_eq shows.toRepresents lines look }

end

/-- Loading keeps every text that fits, up to the style of its breaks: saving gives
the very text back exactly when its breaks are all alike.  What any editor saves,
whatever calls have led to it, every editor of the same capacity loads as the same
lines. -/
theorem saving_loses_nothing [Coordinate κ] {editor : Editor κ} (reachable : editor.Reachable) :
    (∀ text : String, joinedLength (segments text.toList) ≤ editor.buffer.capacity →
      ∃ next, editor.step (.loadDocument text) = .ok (next, .loaded (.ok ())) ∧
        next.Preserves text) ∧
    ∀ other : Editor κ, other.Reachable → other.buffer.capacity = editor.buffer.capacity →
      ∃ next, other.step (.loadDocument editor.textForSave) = .ok (next, .loaded (.ok ())) ∧
        next.look = other.look ∧ editor.Restores next := by
  obtain ⟨draft, shows⟩ := reachable.shows
  refine ⟨fun text => shows.load_preserves, ?_⟩
  intro other others capacity
  obtain ⟨target, otherShows⟩ := others.shows
  exact shows.load_restores otherShows capacity

/-- Breaks by lone CRs, kept by loading and through an edit. -/
theorem saving_loses_nothing_standard :
    (∃ next, standard.step (.loadDocument "a\r\rb") = .ok (next, .loaded (.ok ())) ∧
      next.textForSave = "a\r\rb") ∧
    ∃ editor answers next, standard.run [.loadDocument "a\r\rb", .insertLine] =
        .ok (editor, answers) ∧
      standard.step (.loadDocument editor.textForSave) = .ok (next, .loaded (.ok ())) ∧
      editor.Restores next := by
  have keeps := saving_loses_nothing reachable_standard
  obtain ⟨next, loads, preserves⟩ := keeps.1 "a\r\rb" (by decide)
  refine ⟨⟨next, loads, preserves.exact.mpr ⟨.cr, by decide⟩⟩, ?_⟩
  obtain ⟨editor, answers, runs, reachable⟩ := reachable_standard.of_run
    [.loadDocument "a\r\rb", .insertLine] (by decide +kernel)
  have same : (match standard.run [.loadDocument "a\r\rb", .insertLine] with
      | .ok (editor, _) => decide (standard.buffer.capacity = editor.buffer.capacity)
      | .error _ => false) = true := by decide +kernel
  rw [runs] at same
  obtain ⟨last, reloads, -, restores⟩ := (saving_loses_nothing reachable).2 standard
    reachable_standard (of_decide_eq_true same)
  exact ⟨editor, answers, last, runs, reloads, restores⟩

end Editor

end EditorCore
