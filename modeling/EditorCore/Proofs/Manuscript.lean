import EditorCore.Proofs.PlainText

/-!
Contract: apart from its looks, an editor is a manuscript.

Owns:
- `Manuscript`, all that editing goes by: a draft, the rules and the room for it,
  and what is remembered from one call to the next;
- `Manuscript.step`, what every call does to a manuscript and reports, once it is
  known where a pointer points;
- `Manuscript.Becomes`, all that an operation can leave of one;
- `Editor.manuscript`, and that every call does to an editor what it does to the
  editor's manuscript, so that none changes the rules or the room.

Does not own: tokens, widths, places on the page, or keywords.
-/

namespace EditorCore

variable {κ : Type}

/-! ## Manuscripts -/

/-- The choices that editing goes by.  Those about presentation are blotted out. -/
def Options.rules (options : Options κ) : Options Unit :=
  { options with syntaxHighlight := false, textSize := (), margin := (), lineHeight := () }

/-- What an editor is apart from its looks. -/
structure Manuscript where
  draft : Draft
  rules : Options Unit
  capacity : Nat
  ending : LineEnding
  blink : Blink
  watch : CursorWatch
  afterTypedCr : Bool
  desiredColumn : Option Nat

/-- The length of a word step over characters that lead away from the caret. -/
def wordStepOver (terminals : List Char) : List Char → Nat
  | [] => 0
  | char :: rest =>
      if terminals.contains char then 1
      else ((char :: rest).takeWhile fun next => !terminals.contains next).length

namespace Manuscript

variable (manuscript : Manuscript)

/-- An operation ends with another draft. -/
def settled (desired : Option Nat) (draft : Draft) : Manuscript :=
  { manuscript with
    draft
    blink := Blink.fresh
    watch := manuscript.watch.observe draft.position
    desiredColumn := desired }

/-- An operation ends as a verdict says. -/
def concluded {α : Type} (yes no : α) (full : Nat → α) :
    Verdict Draft → Checked (Manuscript × α)
  | .accepted draft => .ok (manuscript.settled none draft, yes)
  | .declined => .ok (manuscript, no)
  | .full required => ifWord required (manuscript, full required)

/-! ### Operations -/

def verdict : Edit → Verdict Draft
  | .character char =>
      if isBreak char then manuscript.draft.enter manuscript.rules manuscript.capacity
      else manuscript.draft.type manuscript.capacity [char]
  | .newline => manuscript.draft.enter manuscript.rules manuscript.capacity
  | .tab => manuscript.draft.type manuscript.capacity manuscript.rules.indentUnit.chars
  | .backspace | .outdent => manuscript.draft.stepBack manuscript.rules
  | .paste text =>
      manuscript.draft.paste manuscript.rules manuscript.capacity (segments text.toList)

def edit (edit : Edit) : Checked (Manuscript × Bool) :=
  manuscript.concluded true false (fun _ => false) (manuscript.verdict edit)

/-- Pasting nothing is no operation at all. -/
def paste (text : String) : Checked (Manuscript × Except EditError Bool) :=
  if text.toList = [] then .ok (manuscript, .ok true)
  else
    manuscript.concluded (.ok true) (.ok false)
      (fun required => .error (.capacityExceeded required manuscript.capacity))
      (manuscript.verdict (.paste text))

def load (text : String) : Manuscript × Except EditError Unit :=
  let pieces := segments text.toList
  let required := joinedLength pieces
  if required ≤ manuscript.capacity then
    (settled { manuscript with ending := LineEnding.detect text.toList } none
      (Draft.blank.pasted pieces), .ok ())
  else (manuscript, .error (.capacityExceeded required manuscript.capacity))

def goTo (position : Position) : Manuscript :=
  manuscript.settled none (manuscript.draft.goTo position)

/-- A motion that aims nowhere changes nothing. -/
def move (motion : Motion) : Manuscript :=
  match manuscript.draft.target (wordStepOver manuscript.rules.wordTerminals)
      manuscript.desiredColumn motion with
  | some position =>
      manuscript.settled (motion.remembers manuscript.draft.column manuscript.desiredColumn)
        (manuscript.draft.goTo position)
  | none => manuscript

def tick : Manuscript × Bool :=
  ({ manuscript with blink := manuscript.blink.tick.1 }, manuscript.blink.tick.2)

def fetch : Manuscript × List CursorEvent :=
  ({ manuscript with watch := manuscript.watch.drain.1 }, manuscript.watch.drain.2)

/-! ### Calls -/

/-- The memory of a typed CR after another input. -/
def noting (afterTypedCr : Bool) : Manuscript := { manuscript with afterTypedCr }

variable (aim : Draft → κ → κ → Position)

def handle : Message κ → Checked (Manuscript × Bool)
  | .move motion => .ok (manuscript.move motion, true)
  | .insertChar char => manuscript.edit (.character char)
  | .insertNewline => manuscript.edit .newline
  | .deleteBackward => manuscript.edit .backspace
  | .indent => manuscript.edit .tab
  | .outdent => manuscript.edit .outdent
  | .paste text => do
      match ← manuscript.paste text with
      | (pasted, .ok applied) => return (pasted, applied)
      | (unchanged, .error _) => return (unchanged, false)
  | .mouseDown x y => .ok (manuscript.goTo (aim manuscript.draft x y), true)
  | .tick => .ok manuscript.tick

def onCharacter (char : Char) : Checked (Manuscript × Bool) :=
  let noted := manuscript.noting (char = '\r')
  if char = '\n' ∧ manuscript.afterTypedCr then .ok (noted, false)
  else if isBreak char then noted.edit .newline
  else if char = '\t' then noted.edit .tab
  else if isControl char then .ok (noted, false)
  else noted.edit (.character char)

/-- What a call does to a manuscript and what it reports.  Where a pointer points
is told by the page. -/
def step : Call κ → Checked (Manuscript × Answer)
  | .loadDocument text | .loadAnswer (.ok text) =>
      .ok ((manuscript.load text).1, .loaded (manuscript.load text).2)
  | .loadAnswer (.error refusal) => .ok (manuscript, .loaded (.error refusal))
  | .insertChar char => do
      let (next, effect) ← manuscript.edit (.character char)
      return (next, .applied effect)
  | .insertLine => do
      let (next, effect) ← manuscript.edit .newline
      return (next, .applied effect)
  | .deleteChar => do
      let (next, effect) ← manuscript.edit .backspace
      return (next, .applied effect)
  | .indent => do
      let (next, effect) ← manuscript.edit .tab
      return (next, .applied effect)
  | .outdent => do
      let (next, effect) ← manuscript.edit .outdent
      return (next, .applied effect)
  | .paste text => do
      let (next, result) ← manuscript.paste text
      return (next, .pasted result)
  | .pasteFrom clipboard =>
      match clipboard.read with
      | .error cause => .ok (manuscript, .pasted (.error (.clipboard cause)))
      | .ok text => do
          let (next, result) ← manuscript.paste text
          return (next, .pasted result)
  | .onPaste text => do
      let (next, result) ← (manuscript.noting false).paste text
      return (next, .pasted result)
  | .handle message => do
      let (next, effect) ← manuscript.handle aim message
      return (next, .applied effect)
  | .onCharacter char => do
      let (next, effect) ← manuscript.onCharacter char
      return (next, .applied effect)
  | .onKey key => do
      let (next, effect) ← (manuscript.noting false).handle aim (.ofKey key)
      return (next, .applied effect)
  | .onMouseDown x y =>
      .ok ((manuscript.noting false).goTo (aim manuscript.draft x y), .applied true)
  | .move motion => .ok (manuscript.move motion, .done)
  | .moveToPosition position =>
      .ok (manuscript.goTo (manuscript.draft.nearest position), .done)
  | .moveToPoint x y => .ok (manuscript.goTo (aim manuscript.draft x y), .done)
  | .setOrigin _ _ | .setKeywords _ => .ok (manuscript, .done)
  | .tick => .ok (manuscript.tick.1, .applied manuscript.tick.2)
  | .pollEvents => .ok (manuscript.fetch.1, .events manuscript.fetch.2)

/-! ### What a step leaves -/

section Becomes

variable {α : Type} {manuscript : Manuscript} {aim : Draft → κ → κ → Position}

/-- What an operation leaves of a manuscript. -/
inductive Becomes (manuscript : Manuscript) : Manuscript → Prop
  | kept (afterTypedCr : Bool) : Becomes manuscript (manuscript.noting afterTypedCr)
  | settled (afterTypedCr : Bool) (ending : LineEnding) (desired : Option Nat) (draft : Draft) :
      Becomes manuscript (settled { manuscript with afterTypedCr, ending } desired draft)
  | ticked (afterTypedCr : Bool) : Becomes manuscript (manuscript.noting afterTypedCr).tick.1

/-- An outcome is what an operation can lead to. -/
def Leads (manuscript : Manuscript) : Checked (Manuscript × α) → Prop
  | .ok (next, _) => manuscript.Becomes next
  | .error _ => True

/-- Besides, no events are handed over. -/
def Acts (manuscript : Manuscript) : Checked (Manuscript × Answer) → Prop
  | .ok (next, answer) => manuscript.Becomes next ∧ ∀ queued, answer ≠ .events queued
  | .error _ => True

theorem becomes_self (manuscript : Manuscript) : manuscript.Becomes manuscript :=
  .kept manuscript.afterTypedCr

theorem becomes_settled (manuscript : Manuscript) (desired : Option Nat) (draft : Draft) :
    manuscript.Becomes (manuscript.settled desired draft) :=
  .settled manuscript.afterTypedCr manuscript.ending desired draft

/-- Nothing that becomes of a manuscript changes its rules or its room. -/
theorem Becomes.setup {next : Manuscript} (becomes : manuscript.Becomes next) :
    next.rules = manuscript.rules ∧ next.capacity = manuscript.capacity := by
  cases becomes with
  | kept => exact ⟨rfl, rfl⟩
  | settled => exact ⟨rfl, rfl⟩
  | ticked => exact ⟨rfl, rfl⟩

theorem Becomes.of_noting {next : Manuscript} {afterTypedCr : Bool}
    (becomes : (manuscript.noting afterTypedCr).Becomes next) : manuscript.Becomes next := by
  cases becomes with
  | kept afterTypedCr => exact .kept afterTypedCr
  | settled afterTypedCr ending desired draft =>
      exact .settled afterTypedCr ending desired draft
  | ticked afterTypedCr => exact .ticked afterTypedCr

theorem Leads.of_noting {outcome : Checked (Manuscript × α)} {afterTypedCr : Bool}
    (leads : (manuscript.noting afterTypedCr).Leads outcome) : manuscript.Leads outcome := by
  cases outcome with
  | error fault => trivial
  | ok pair => exact Becomes.of_noting leads

/-- What a call reports makes no difference to what becomes of the manuscript. -/
theorem Leads.reported {outcome : Checked (Manuscript × α)} (leads : manuscript.Leads outcome)
    {report : α → Answer} (silent : ∀ result queued, report result ≠ .events queued) :
    manuscript.Acts (do
      let (next, result) ← outcome
      return (next, report result)) := by
  cases outcome with
  | error fault => trivial
  | ok pair => exact ⟨leads, silent pair.2⟩

theorem leads_concluded (manuscript : Manuscript) (yes no : α) (full : Nat → α)
    (verdict : Verdict Draft) : manuscript.Leads (manuscript.concluded yes no full verdict) := by
  cases verdict with
  | accepted draft => exact manuscript.becomes_settled none draft
  | declined => exact manuscript.becomes_self
  | full required =>
      change manuscript.Leads (ifWord required (manuscript, full required))
      unfold ifWord
      split
      · exact manuscript.becomes_self
      · trivial

theorem leads_edit (manuscript : Manuscript) (edit : Edit) :
    manuscript.Leads (manuscript.edit edit) :=
  manuscript.leads_concluded _ _ _ _

theorem leads_paste (manuscript : Manuscript) (text : String) :
    manuscript.Leads (manuscript.paste text) := by
  unfold paste
  split
  · exact manuscript.becomes_self
  · exact manuscript.leads_concluded _ _ _ _

theorem becomes_load (manuscript : Manuscript) (text : String) :
    manuscript.Becomes (manuscript.load text).1 := by
  unfold load
  by_cases fits : joinedLength (segments text.toList) ≤ manuscript.capacity
  · rw [if_pos fits]
    exact .settled manuscript.afterTypedCr _ none _
  · rw [if_neg fits]
    exact manuscript.becomes_self

theorem becomes_move (manuscript : Manuscript) (motion : Motion) :
    manuscript.Becomes (manuscript.move motion) := by
  unfold move
  split
  · exact manuscript.becomes_settled _ _
  · exact manuscript.becomes_self

/-- A message leads to what the call that it stands for leads to. -/
theorem leads_handle (manuscript : Manuscript) (message : Message κ) :
    manuscript.Leads (manuscript.handle aim message) := by
  cases message with
  | move motion => exact manuscript.becomes_move motion
  | insertChar char => exact manuscript.leads_edit _
  | insertNewline => exact manuscript.leads_edit _
  | deleteBackward => exact manuscript.leads_edit _
  | indent => exact manuscript.leads_edit _
  | outdent => exact manuscript.leads_edit _
  | paste text =>
      have leads := manuscript.leads_paste text
      rw [handle]
      cases pastes : manuscript.paste text with
      | error fault => trivial
      | ok pair =>
          rw [pastes] at leads
          obtain ⟨next, refusal | taken⟩ := pair <;> exact leads
  | mouseDown x y => exact manuscript.becomes_settled none _
  | tick => exact .ticked manuscript.afterTypedCr

/-- A typed character leads on whether it is part of a break or not. -/
theorem leads_onCharacter (manuscript : Manuscript) (char : Char) :
    manuscript.Leads (manuscript.onCharacter char) := by
  have edits : ∀ edit, manuscript.Leads ((manuscript.noting (char = '\r')).edit edit) := by
    intro edit
    exact (leads_edit _ edit).of_noting
  unfold onCharacter
  split
  · exact .kept _
  · split
    · exact edits _
    · split
      · exact edits _
      · split
        · exact .kept _
        · exact edits _

/-- Every call but fetching events is an operation. -/
theorem acts_step (manuscript : Manuscript) {call : Call κ} (other : call ≠ .pollEvents) :
    manuscript.Acts (manuscript.step aim call) := by
  have unchanged : manuscript.Acts (.ok (manuscript, .done)) :=
    ⟨manuscript.becomes_self, fun _ => by simp⟩
  have applied : ∀ effect queued, Answer.applied effect ≠ .events queued := by simp
  have pasted : ∀ result queued, Answer.pasted result ≠ .events queued := by simp
  cases call with
  | loadDocument text => exact ⟨manuscript.becomes_load text, fun _ => by simp⟩
  | loadAnswer answer =>
      cases answer with
      | error refusal => exact ⟨manuscript.becomes_self, fun _ => by simp⟩
      | ok text => exact ⟨manuscript.becomes_load text, fun _ => by simp⟩
  | insertChar char => exact (manuscript.leads_edit _).reported applied
  | insertLine => exact (manuscript.leads_edit _).reported applied
  | deleteChar => exact (manuscript.leads_edit _).reported applied
  | indent => exact (manuscript.leads_edit _).reported applied
  | outdent => exact (manuscript.leads_edit _).reported applied
  | paste text => exact (manuscript.leads_paste text).reported pasted
  | pasteFrom clipboard =>
      rw [step]
      cases clipboard.read with
      | error cause => exact ⟨manuscript.becomes_self, fun _ => by simp⟩
      | ok text => exact (manuscript.leads_paste text).reported pasted
  | onPaste text => exact (leads_paste _ text).of_noting.reported pasted
  | handle message => exact (manuscript.leads_handle message).reported applied
  | onCharacter char => exact (manuscript.leads_onCharacter char).reported applied
  | onKey key => exact (leads_handle _ (.ofKey key)).of_noting.reported applied
  | onMouseDown x y => exact ⟨(becomes_settled _ none _).of_noting, fun _ => by simp⟩
  | move motion => exact ⟨manuscript.becomes_move motion, fun _ => by simp⟩
  | moveToPosition position => exact ⟨manuscript.becomes_settled none _, fun _ => by simp⟩
  | moveToPoint x y => exact ⟨manuscript.becomes_settled none _, fun _ => by simp⟩
  | setOrigin x y => exact unchanged
  | setKeywords words => exact unchanged
  | tick => exact ⟨.ticked manuscript.afterTypedCr, fun _ => by simp⟩
  | pollEvents => exact absurd rfl other

end Becomes

end Manuscript

namespace Editor

variable {editor : Editor κ} {draft : Draft}

/-! ## Editors as manuscripts -/

/-- The manuscript of an editor that shows a draft. -/
def manuscript (editor : Editor κ) (draft : Draft) : Manuscript where
  draft
  rules := editor.options.rules
  capacity := editor.buffer.capacity
  ending := editor.ending
  blink := editor.blink
  watch := editor.watch
  afterTypedCr := editor.afterTypedCr
  desiredColumn := editor.cursor.desiredColumn

theorem wordStep_eq (editor : Editor κ) :
    editor.wordStep = wordStepOver editor.options.wordTerminals := by
  funext chars
  cases chars <;> rfl

/-- Only what surrounds the text and the lines goes into a manuscript. -/
theorem manuscript_of_surroundings {next : Editor κ} {around : Surroundings κ}
    (same : next.surroundings = around) (draft : Draft) :
    next.manuscript draft =
      { draft
        rules := around.look.options.rules
        capacity := around.capacity
        ending := around.ending
        blink := around.blink
        watch := around.watch
        afterTypedCr := around.afterTypedCr
        desiredColumn := around.desiredColumn } := by
  subst same
  rfl

variable [Coordinate κ]

/-- An editor shows the draft of a manuscript and goes by the rest of it. -/
structure Presents (editor : Editor κ) (manuscript : Manuscript) : Prop
    extends Shows editor manuscript.draft where
  manuscript_eq : editor.manuscript manuscript.draft = manuscript

/-- An outcome of an editor is the one of a manuscript. -/
def Tracks {α : Type} (outcome : Checked (Editor κ × α)) :
    Checked (Manuscript × α) → Prop
  | .ok (target, result) => ∃ next, outcome = .ok (next, result) ∧ next.Presents target
  | .error fault => outcome = .error fault

section Tracks

variable {α β : Type}

/-- An editor that shows a draft presents the manuscript with that draft. -/
theorem Shows.presents (shows : editor.Shows draft) :
    editor.Presents (editor.manuscript draft) where
  toShows := shows
  manuscript_eq := rfl

/-- A settled editor presents the manuscript with the new draft. -/
theorem Settled.presents {next : Editor κ} {desired : Option Nat} {target : Draft}
    (settled : Settled editor next desired target) (draft : Draft) :
    next.Presents ((editor.manuscript draft).settled desired target) where
  toShows := settled.toShows
  manuscript_eq := manuscript_of_surroundings settled.around target

theorem Tracks.reported {outcome : Checked (Editor κ × α)}
    {expected : Checked (Manuscript × α)} (tracks : Tracks outcome expected)
    (report : α → β) :
    Tracks (do
      let (next, result) ← outcome
      return (next, report result)) (do
      let (next, result) ← expected
      return (next, report result)) := by
  cases expected with
  | error fault =>
      subst tracks
      rfl
  | ok pair =>
      obtain ⟨next, rfl, presents⟩ := tracks
      exact ⟨next, rfl, presents⟩

/-- A step that goes through is one of the manuscript. -/
theorem Tracks.of_ok {outcome : Checked (Editor κ × α)} {expected : Checked (Manuscript × α)}
    {next : Editor κ} {result : α} (tracks : Tracks outcome expected)
    (goes : outcome = .ok (next, result)) :
    ∃ target, expected = .ok (target, result) ∧ next.Presents target := by
  cases expected with
  | error fault => exact absurd (goes.symm.trans tracks) (by simp)
  | ok pair =>
      obtain ⟨last, ends, presents⟩ := tracks
      obtain ⟨rfl, rfl⟩ := Prod.mk.inj (Except.ok.inj (goes.symm.trans ends))
      exact ⟨pair.1, rfl, presents⟩

/-- An edit that ends as a verdict says does to the manuscript what the verdict says. -/
theorem Ends.tracks {yes no : α} {full : Nat → α} {verdict : Verdict Draft}
    {outcome : Checked (Editor κ × α)} (shows : editor.Shows draft)
    (ends : editor.Ends yes no full verdict outcome) :
    Tracks outcome ((editor.manuscript draft).concluded yes no full verdict) := by
  cases verdict with
  | accepted target =>
      obtain ⟨next, rfl, settled⟩ := ends
      exact ⟨next, rfl, settled.presents draft⟩
  | declined =>
      subst ends
      exact ⟨editor, rfl, shows.presents⟩
  | full required =>
      subst ends
      change Tracks (ifWord required (editor, full required))
        (ifWord required (editor.manuscript draft, full required))
      unfold ifWord
      split
      · exact ⟨editor, rfl, shows.presents⟩
      · rfl

/-- A motion that arrives takes the manuscript to the same place. -/
theorem Arrives.tracks {desired : Option Nat} {position : Position}
    {outcome : Checked (Editor κ)} (arrives : editor.Arrives draft desired position outcome)
    (result : α) :
    Tracks (do return (← outcome, result))
      (.ok ((editor.manuscript draft).settled desired (draft.goTo position), result)) := by
  obtain ⟨last, rfl, settled⟩ := arrives
  exact ⟨last, rfl, settled.presents draft⟩

end Tracks

/-! ## Operations -/

section Operations

theorem Shows.tracks_enter (shows : editor.Shows draft) :
    Tracks editor.insertLine ((editor.manuscript draft).edit .newline) :=
  Ends.tracks shows shows.insertLine

theorem Shows.tracks_character (shows : editor.Shows draft) (char : Char) :
    Tracks (editor.insertChar char) ((editor.manuscript draft).edit (.character char)) := by
  by_cases ends : isBreak char = true
  · have same : (editor.manuscript draft).verdict (.character char) =
        (editor.manuscript draft).verdict .newline := if_pos ends
    rw [Editor.insertChar, if_pos ends, Manuscript.edit, same]
    exact shows.tracks_enter
  · have clean : Unbroken [char] := unbroken_singleton.mpr (Bool.eq_false_iff.mpr ends)
    have same : (editor.manuscript draft).verdict (.character char) =
        draft.type editor.buffer.capacity [char] := if_neg ends
    rw [Editor.insertChar, if_neg ends, Manuscript.edit, same]
    exact Ends.tracks shows (shows.typeRun clean)

theorem Shows.tracks_outdent (shows : editor.Shows draft) :
    Tracks editor.outdent ((editor.manuscript draft).edit .outdent) :=
  Ends.tracks shows shows.outdent

theorem Shows.tracks_backspace (shows : editor.Shows draft) :
    Tracks editor.deleteChar ((editor.manuscript draft).edit .backspace) := by
  rw [shows.deleteChar_eq]
  exact shows.tracks_outdent

theorem Shows.tracks_tab (shows : editor.Shows draft) :
    Tracks editor.indent ((editor.manuscript draft).edit .tab) :=
  Ends.tracks shows shows.indent

theorem Shows.tracks_paste (shows : editor.Shows draft) (text : String) :
    Tracks (editor.paste text) ((editor.manuscript draft).paste text) := by
  unfold Manuscript.paste
  by_cases empty : text.toList = []
  · rw [Editor.paste, if_pos empty, if_pos empty]
    exact ⟨editor, rfl, shows.presents⟩
  · rw [if_neg empty]
    exact Ends.tracks shows (shows.paste empty)

/-- Loading replaces the draft, or is refused in the manuscript as well. -/
theorem Shows.tracks_load (shows : editor.Shows draft) (text : String) :
    Tracks (editor.loadDocument text) (.ok ((editor.manuscript draft).load text)) := by
  unfold Manuscript.load
  by_cases fits : joinedLength (segments text.toList) ≤ editor.buffer.capacity
  · obtain ⟨next, loads, settled⟩ := shows.loadDocument fits
    rw [if_pos (show _ ≤ (editor.manuscript draft).capacity from fits)]
    exact ⟨next, loads, settled.presents draft⟩
  · rw [if_neg (show ¬ _ ≤ (editor.manuscript draft).capacity from fits),
      loadDocument_of_full (Nat.lt_of_not_le fits)]
    exact ⟨editor, rfl, shows.presents⟩

/-- A motion aims at the same place in the manuscript. -/
theorem Shows.tracks_move {α : Type} (shows : editor.Shows draft) (motion : Motion)
    (result : α) :
    Tracks (do return (← editor.move motion, result))
      (.ok ((editor.manuscript draft).move motion, result)) := by
  have moves := shows.move motion
  rw [wordStep_eq] at moves
  change Tracks _ (.ok (match draft.target (wordStepOver editor.options.wordTerminals)
    editor.cursor.desiredColumn motion with
    | some position => _
    | none => _, result))
  cases aims : draft.target (wordStepOver editor.options.wordTerminals)
    editor.cursor.desiredColumn motion with
  | some position =>
      rw [aims] at moves
      exact Arrives.tracks moves result
  | none =>
      rw [aims] at moves
      have stays : editor.move motion = .ok editor := moves
      rw [stays]
      exact ⟨editor, rfl, shows.presents⟩

/-- A message is tracked because the call that it stands for is. -/
theorem Shows.tracks_handle (shows : editor.Shows draft) (message : Message κ) :
    Tracks (editor.handle message)
      ((editor.manuscript draft).handle editor.pointed message) := by
  cases message with
  | move motion => exact shows.tracks_move motion true
  | insertChar char => exact shows.tracks_character char
  | insertNewline => exact shows.tracks_enter
  | deleteBackward => exact shows.tracks_backspace
  | indent => exact shows.tracks_tab
  | outdent => exact shows.tracks_outdent
  | paste text =>
      have tracks := shows.tracks_paste text
      rw [Editor.handle, Manuscript.handle]
      cases expected : (editor.manuscript draft).paste text with
      | error fault =>
          rw [expected] at tracks
          rw [show editor.paste text = .error fault from tracks]
          rfl
      | ok pair =>
          rw [expected] at tracks
          obtain ⟨next, pastes, presents⟩ := tracks
          rw [pastes]
          obtain ⟨target, refusal | taken⟩ := pair <;> exact ⟨next, rfl, presents⟩
  | mouseDown x y => exact (shows.moveToPoint x y).tracks true
  | tick => exact ⟨editor.tick.1, rfl, shows.tick, rfl⟩

/-- A typed character is heard in the manuscript as in the editor. -/
theorem Shows.tracks_onCharacter (shows : editor.Shows draft) (char : Char) :
    Tracks (editor.onCharacter char) ((editor.manuscript draft).onCharacter char) := by
  have typed := shows.withTypedCr (char = '\r')
  unfold Editor.onCharacter Manuscript.onCharacter
  change Tracks _ (if char = '\n' ∧ editor.afterTypedCr = true then _ else _)
  split
  · exact ⟨_, rfl, typed.presents⟩
  · split
    · exact typed.tracks_enter
    · split
      · exact typed.tracks_tab
      · split
        · exact ⟨_, rfl, typed.presents⟩
        · exact typed.tracks_character char

/-- Every call does to an editor what it does to its manuscript, and reports the
same. -/
theorem Shows.tracks (shows : editor.Shows draft) (call : Call κ) :
    Tracks (editor.step call) ((editor.manuscript draft).step editor.pointed call) := by
  cases call with
  | loadDocument text => exact (shows.tracks_load text).reported Answer.loaded
  | loadAnswer answer =>
      cases answer with
      | error refusal => exact ⟨editor, rfl, shows.presents⟩
      | ok text => exact (shows.tracks_load text).reported Answer.loaded
  | insertChar char => exact (shows.tracks_character char).reported Answer.applied
  | insertLine => exact shows.tracks_enter.reported Answer.applied
  | deleteChar => exact shows.tracks_backspace.reported Answer.applied
  | indent => exact shows.tracks_tab.reported Answer.applied
  | outdent => exact shows.tracks_outdent.reported Answer.applied
  | paste text => exact (shows.tracks_paste text).reported Answer.pasted
  | pasteFrom clipboard =>
      rw [Editor.step, Editor.pasteFrom, Manuscript.step]
      cases clipboard.read with
      | error cause => exact ⟨editor, rfl, shows.presents⟩
      | ok text => exact (shows.tracks_paste text).reported Answer.pasted
  | onPaste text => exact ((shows.withTypedCr false).tracks_paste text).reported Answer.pasted
  | handle message => exact (shows.tracks_handle message).reported Answer.applied
  | onCharacter char => exact (shows.tracks_onCharacter char).reported Answer.applied
  | onKey key => exact ((shows.withTypedCr false).tracks_handle (.ofKey key)).reported Answer.applied
  | onMouseDown x y =>
      exact (((shows.withTypedCr false).moveToPoint x y).tracks true).reported Answer.applied
  | move motion => exact shows.tracks_move motion Answer.done
  | moveToPosition position => exact (shows.moveToPosition position).tracks Answer.done
  | moveToPoint x y => exact (shows.moveToPoint x y).tracks Answer.done
  | setOrigin x y => exact ⟨editor.setOrigin x y, rfl, shows.setOrigin x y, rfl⟩
  | setKeywords words =>
      obtain ⟨next, colours, nextShows, around⟩ := shows.setKeywords words
      refine ⟨next, ?_, nextShows, manuscript_of_surroundings around draft⟩
      rw [Editor.step, colours]
      rfl
  | tick => exact ⟨editor.tick.1, rfl, shows.tick, rfl⟩
  | pollEvents => exact ⟨editor.pollEvents.1, rfl, shows.pollEvents, rfl⟩

/-- No call changes the rules or the room. -/
theorem Shows.setup_of_step (shows : editor.Shows draft) {call : Call κ} {next : Editor κ}
    {answer : Answer} (steps : editor.step call = .ok (next, answer)) :
    next.options.rules = editor.options.rules ∧
      next.buffer.capacity = editor.buffer.capacity := by
  obtain ⟨target, expected, presents⟩ := (shows.tracks call).of_ok steps
  have setup : target.rules = editor.options.rules ∧ target.capacity = editor.buffer.capacity := by
    by_cases polls : call = .pollEvents
    · subst polls
      obtain ⟨rfl, -⟩ := Prod.mk.inj (Except.ok.inj expected)
      exact ⟨rfl, rfl⟩
    · have acts : (editor.manuscript draft).Acts
          ((editor.manuscript draft).step editor.pointed call) :=
        (editor.manuscript draft).acts_step polls
      rw [expected] at acts
      exact acts.1.setup
  have rules : next.options.rules = target.rules :=
    congrArg Manuscript.rules presents.manuscript_eq
  have capacity : next.buffer.capacity = target.capacity :=
    congrArg Manuscript.capacity presents.manuscript_eq
  exact ⟨rules.trans setup.1, capacity.trans setup.2⟩

end Operations

end Editor

end EditorCore
