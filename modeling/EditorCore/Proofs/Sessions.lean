import Mathlib.Data.List.Forall2
import EditorCore.CommandLine.Program
import EditorCore.Proofs.Manuscript
import EditorCore.Proofs.Safety
import EditorCore.Proofs.TabOrigins

/-!
Contract: what a session with files comes to.

Owns:
- `Editor.Serves`, an editor under some settings, which every call leaves so;
- `Settings.Roomy`, settings under which words hold every length that typing can
  ask for, and `Concludes`, which says that nothing else can stop a computation;
- `CommandLine.Openable`, files that can be opened one by one and have names of their
  own: they are opened one tab each, in order, the last one is prepared, and it can be
  shown.

Does not own: arguments, or where files are.
-/

namespace EditorCore

variable {κ : Type}

/-- Words hold the length of every document, of a unit for each of its characters,
and of a break. -/
def Settings.Roomy (settings : Settings κ) : Prop :=
  (settings.capacity + 1) * (settings.indentUnit.length + 1) + 1 ≤ Word.largest

theorem Settings.Roomy.capacity_lt {settings : Settings κ} (roomy : settings.Roomy) :
    settings.capacity < Word.largest := by
  have room : (settings.capacity + 1) * (settings.indentUnit.length + 1) + 1 ≤
      Word.largest := roomy
  have more : settings.capacity + 1 ≤
      (settings.capacity + 1) * (settings.indentUnit.length + 1) :=
    Nat.le_mul_of_pos_right _ (Nat.succ_pos _)
  omega

/-! ## Computations that only counts can stop -/

/-- A computation comes to a result of some kind, or it is stopped by a count that
passes the words, and that only without room. -/
def Concludes {α : Type} (room : Prop) (kind : α → Prop) : Checked α → Prop
  | .ok result => kind result
  | .error fault => fault = .countTooLarge ∧ ¬ room

section Concludes

variable {α β : Type} {room wider : Prop} {kind : α → Prop} {other : β → Prop}
variable {outcome : Checked α}

/-- What concludes step by step concludes. -/
theorem Concludes.bind {later : α → Checked β} (first : Concludes room kind outcome)
    (goesOn : ∀ result, kind result → Concludes room other (later result)) :
    Concludes room other (outcome >>= later) := by
  cases outcome with
  | error fault => exact first
  | ok result => exact goesOn result first

theorem Concludes.weaken (concludes : Concludes wider kind outcome) (more : room → wider) :
    Concludes room kind outcome := by
  cases outcome with
  | error fault => exact ⟨concludes.1, mt more concludes.2⟩
  | ok result => exact concludes

theorem Concludes.imp {wanted : α → Prop} (concludes : Concludes room kind outcome)
    (implies : ∀ result, kind result → wanted result) : Concludes room wanted outcome := by
  cases outcome with
  | error fault => exact concludes
  | ok result => exact implies result concludes

theorem concludes_add {left right : Nat} (fits : room → left + right ≤ Word.largest) :
    Concludes room (fun _ => True) (Word.add left right) := by
  unfold Word.add
  split
  · trivial
  · rename_i full
    exact ⟨rfl, fun there => full (fits there)⟩

end Concludes

/-! ## Drafts -/

/-- A document has as many characters as its caret has lines above and columns to
its left. -/
theorem Draft.position_le_length (draft : Draft) :
    draft.row ≤ draft.text.length ∧ draft.column ≤ draft.text.length := by
  have above := length_le_flow_true draft.above
  have inLine := draft.offset_le_stop
  have inText := draft.stop_le_length_text
  rw [offset, start] at inLine
  rw [row]
  omega

theorem Draft.text_goTo_nearest (draft : Draft) (position : Position) :
    (draft.goTo (draft.nearest position)).text = draft.text := by
  have inside := draft.row_lt_length_lines
  obtain ⟨line, found⟩ :=
    draft.exists_line (min position.line (draft.lines.length - 1)) (by omega)
  exact Draft.text_seek found

/-! ## Workspaces -/

namespace Workspace

variable {workspace : Workspace κ}

theorem tabs_foldl_append (opened : List (Tab κ)) (workspace : Workspace κ) :
    (opened.foldl append workspace).tabs = workspace.tabs ++ opened := by
  induction opened generalizing workspace with
  | nil => exact (List.append_nil _).symm
  | cons tab rest inductionHypothesis =>
      rw [List.foldl_cons, inductionHypothesis]
      exact List.append_assoc workspace.tabs [tab] rest

theorem append_withEditor (workspace : Workspace κ) (tab : Tab κ) (editor : Editor κ) :
    (workspace.append tab).withEditor editor = workspace.append { tab with editor } := by
  have place : (workspace.append tab).tabs = workspace.tabs ++ tab :: [] := rfl
  have active : (workspace.append tab).active = some workspace.tabs.length := by
    simp [append]
  rw [withEditor_eq place active]
  simp [append]

end Workspace

/-! ## Editors -/

namespace Editor

variable [Coordinate κ] {settings : Settings κ} {editor next : Editor κ} {draft : Draft}

/-- An editor shows a draft under the rules and with the room of some settings. -/
structure Serves (settings : Settings κ) (editor : Editor κ) (draft : Draft) : Prop
    extends Shows editor draft where
  rules : editor.options.rules = (Options.ofSettings settings).rules
  capacity : editor.buffer.capacity = settings.capacity

theorem Settled.serves {desired : Option Nat} {target : Draft}
    (settled : Settled editor next desired target)
    (rules : editor.options.rules = (Options.ofSettings settings).rules)
    (capacity : editor.buffer.capacity = settings.capacity) : Serves settings next target where
  toShows := settled.toShows
  rules := by rw [settled.options, rules]
  capacity := settled.capacity.trans capacity

/-- No call changes the rules or the room. -/
theorem Serves.step {call : Call κ} {answer : Answer} (serves : Serves settings editor draft)
    (steps : editor.step call = .ok (next, answer)) :
    ∃ target, Serves settings next target := by
  have sound := serves.toShows.step call
  rw [steps] at sound
  obtain ⟨⟨target, nextShows⟩, -⟩ := sound
  obtain ⟨rules, capacity⟩ := serves.toShows.setup_of_step steps
  exact ⟨target, nextShows, rules.trans serves.rules, capacity.trans serves.capacity⟩

/-- An editor that could be made from a text shows it. -/
theorem serves_of_withText {metrics : GlyphMetrics κ} (word : settings.capacity ≤ Word.largest)
    {text : String} {opened : Editor κ}
    (opens : withText settings metrics text = .ok (.ok opened)) :
    Serves settings opened (Draft.blank.pasted (segments text.toList)) := by
  obtain ⟨created, creates, continues⟩ := exists_of_bind opens
  obtain ⟨-, -, makes⟩ := exists_of_bind creates
  obtain rfl := Except.ok.inj makes
  obtain ⟨⟨loaded, outcome⟩, loads, ends⟩ := exists_of_bind continues
  by_cases fits : joinedLength (segments text.toList) ≤ settings.capacity
  · obtain ⟨next, goes, settled⟩ := (shows_blank metrics word).loadDocument fits
    obtain ⟨rfl, rfl⟩ := Prod.mk.inj (Except.ok.inj (loads.symm.trans goes))
    obtain rfl := Except.ok.inj (Except.ok.inj ends)
    exact settled.serves rfl rfl
  · have refuses : (ofSettings settings metrics).loadDocument text = .ok (ofSettings settings metrics,
        .error (.capacityExceeded (joinedLength (segments text.toList)) settings.capacity)) :=
      if_pos (Nat.lt_of_not_le fits)
    obtain ⟨rfl, rfl⟩ := Prod.mk.inj (Except.ok.inj (loads.symm.trans refuses))
    cases Except.ok.inj ends

theorem Serves.indentUnit_eq (serves : Serves settings editor draft) :
    editor.options.indentUnit = settings.indentUnit :=
  congrArg Options.indentUnit serves.rules

/-- Under roomy settings, what a typed character asks for is a word. -/
theorem Serves.lengthFor_typed (serves : Serves settings editor draft) (roomy : settings.Roomy)
    (char : Char) :
    editor.lengthFor ((Call.onCharacter char).request editor.afterTypedCr) ≤ Word.largest := by
  have bounded : draft.text.length ≤ settings.capacity := by
    rw [← serves.capacity]
    exact serves.bounded
  have length : editor.buffer.length = draft.text.length := serves.length
  have product := Nat.mul_le_mul_right settings.indentUnit.length bounded
  have room : settings.capacity * settings.indentUnit.length + settings.capacity +
      settings.indentUnit.length + 2 ≤ Word.largest := by
    have roomy : (settings.capacity + 1) * (settings.indentUnit.length + 1) + 1 ≤
        Word.largest := roomy
    rw [Nat.add_mul, Nat.mul_add] at roomy
    omega
  have entered : editor.lengthEntered ≤ Word.largest := by
    have level := draft.level_le_length editor.options
    have units := Nat.mul_le_mul_right editor.options.indentUnit.length level
    rw [serves.indentUnit_eq] at units
    rw [serves.toRepresents.lengthEntered_eq, serves.indentUnit_eq, separatorLength]
    omega
  rw [Call.request, Request.ofTyped]
  split
  · rw [lengthFor, length]
    · omega
    all_goals simp
  · split
    · exact entered
    · split
      · rw [lengthFor, length, serves.indentUnit_eq]
        omega
      · split
        · rw [lengthFor, length]
          · omega
          all_goals simp
        · rw [lengthFor]
          split
          · exact entered
          · omega

/-- The step lemma of typing: a character leaves an editor that serves. -/
theorem Serves.onCharacter (serves : Serves settings editor draft) (char : Char) :
    Concludes settings.Roomy (fun pair => ∃ target, Serves settings pair.1 target)
      (editor.onCharacter char) := by
  cases types : editor.onCharacter char with
  | error fault =>
      have steps : editor.step (.onCharacter char) = .error fault := by
        rw [Editor.step, types]
        rfl
      have sound := serves.toShows.step (.onCharacter char)
      rw [steps] at sound
      refine ⟨sound.1, ?_⟩
      intro roomy
      obtain ⟨next, answer, goes⟩ :=
        serves.toShows.exists_of_step (serves.lengthFor_typed roomy char)
      cases steps.symm.trans goes
  | ok pair =>
      have steps : editor.step (.onCharacter char) = .ok (pair.1, .applied pair.2) := by
        rw [Editor.step, types]
        rfl
      exact serves.step steps

end Editor

/-! ## Preparing -/

namespace CommandLine

open Editor (Serves)

variable [Coordinate κ] {settings : Settings κ} {editor : Editor κ} {draft : Draft}

/-- Typing a text leaves an editor that serves. -/
theorem typeAll_concludes (serves : Serves settings editor draft) (chars : List Char) :
    Concludes settings.Roomy (fun last => ∃ target, Serves settings last target)
      (typeAll editor chars) := by
  induction chars generalizing editor draft with
  | nil => exact ⟨draft, serves⟩
  | cons char later inductionHypothesis =>
      refine (serves.onCharacter char).bind ?_
      rintro ⟨next, effect⟩ ⟨middle, nextServes⟩
      exact inductionHypothesis nextServes

/-- Going to a place leaves the typing, and keeps the document. -/
theorem exists_placed (serves : Serves settings editor draft) (startup : Startup) :
    ∃ placed target,
      prepared startup editor = typeAll placed (startup.typed.getD "").toList ∧
        Serves settings placed target ∧ target.text = draft.text := by
  cases goes : startup.position with
  | none =>
      refine ⟨editor, draft, ?_, serves, rfl⟩
      rw [prepared, goes]
      rfl
  | some position =>
      obtain ⟨placed, moves, settled⟩ := serves.toShows.moveToPosition position
      refine ⟨placed, _, ?_, settled.serves serves.rules serves.capacity,
        draft.text_goTo_nearest position⟩
      rw [prepared, goes]
      change (editor.moveToPosition position >>= _) = _
      rw [moves]
      rfl

/-- A prepared editor serves, and without text to type its document stays. -/
theorem prepared_concludes (serves : Serves settings editor draft) (startup : Startup) :
    Concludes (startup.typed = none ∨ settings.Roomy)
      (fun last => ∃ target, Serves settings last target ∧
        (startup.typed = none → target.text = draft.text))
      (prepared startup editor) := by
  obtain ⟨placed, target, prepares, placedServes, same⟩ := exists_placed serves startup
  rw [prepares]
  cases typed : startup.typed with
  | none => exact ⟨target, placedServes, fun _ => same⟩
  | some text =>
      refine ((typeAll_concludes placedServes text.toList).imp ?_).weaken
        fun room => room.resolve_left nofun
      rintro last ⟨target, lastServes⟩
      exact ⟨target, lastServes, nofun⟩

/-! ## Showing -/

/-- A document is shorter than the largest word, so that its places can be counted
from one. -/
def Displayable (draft : Draft) : Prop := draft.text.length < Word.largest

/-- Under roomy settings every document can be shown. -/
theorem displayable_of_roomy (serves : Serves settings editor draft) (roomy : settings.Roomy) :
    Displayable draft :=
  calc draft.text.length
      ≤ editor.buffer.capacity := serves.bounded
    _ = settings.capacity := serves.capacity
    _ < Word.largest := roomy.capacity_lt

/-- A listing counts the caret's place from one, for which there has to be a word. -/
theorem listing_concludes {room : Prop} (shows : editor.Shows draft)
    (displayable : room → Displayable draft) (name : String) :
    Concludes room (fun _ => True) (listing name editor) := by
  have inside := draft.position_le_length
  have displays : Concludes room (fun _ => True) draft.position.display := by
    refine (concludes_add fun there => ?_).bind fun line _ =>
      (concludes_add fun there => ?_).bind fun column _ => trivial
    · exact Nat.lt_of_le_of_lt inside.1 (displayable there)
    · exact Nat.lt_of_le_of_lt inside.2 (displayable there)
  rw [listing, shows.position_eq]
  exact displays.bind fun place _ => trivial

/-- An active document can be shown. -/
theorem shown_concludes {room : Prop} {workspace : Workspace Float32} {tab : Tab Float32}
    {draft : Draft} (active : workspace.active? = some tab) (shows : tab.editor.Shows draft)
    (displayable : room → Displayable draft) (output : Output) :
    Concludes room (fun _ => True) (shown output workspace) := by
  rw [shown, active]
  cases output with
  | text => exact listing_concludes shows displayable tab.name
  | json =>
      change Concludes room _ (jsonDump tab.name tab.editor)
      rw [jsonDump, shows.position_eq]
      trivial

/-! ## Opening -/

section Opening

variable {metrics : GlyphMetrics κ} {load : String → Except EditError String}
variable {workspace : Workspace κ}

/-- A file under a new name gets a tab at the end. -/
theorem openFile_eq {path text : String} {editor : Editor κ}
    (absent : documentName path ∉ workspace.names) (loads : load path = .ok text)
    (reads : Editor.withText workspace.settings workspace.metrics text = .ok (.ok editor)) :
    workspace.openFile load path =
      .ok (workspace.append ⟨documentName path, some path, editor⟩, .ok ()) := by
  have missing := Workspace.position?_eq_none_iff.mpr absent
  simp only [Workspace.openFile, missing, loads, Workspace.openText]
  change (Editor.withText workspace.settings workspace.metrics text >>= _) = _
  rw [reads]
  rfl

/-- Each file can be opened by itself, and the names of the files differ. -/
structure Openable (settings : Settings κ) (metrics : GlyphMetrics κ)
    (load : String → Except EditError String) (paths : List String) : Prop where
  given : paths ≠ []
  alone : ∀ path ∈ paths, ∃ opened,
    (Workspace.empty settings metrics).openFile load path = .ok (opened, .ok ())
  distinct : (paths.map documentName).Nodup

/-- Tabs are made from what there is at paths, one for each, in order. -/
def Opened (settings : Settings κ) (metrics : GlyphMetrics κ)
    (load : String → Except EditError String) (paths : List String) (tabs : List (Tab κ)) :
    Prop :=
  List.Forall₂ (fun path tab => tab.MadeBy settings metrics (.openFile load path)) paths tabs

theorem path_of_made {path : String} {tab : Tab κ}
    (made : tab.MadeBy settings metrics (.openFile load path)) : tab.path = some path := by
  cases made with
  | file loads reads => rfl

theorem Opened.paths_eq {paths : List String} {tabs : List (Tab κ)}
    (opened : Opened settings metrics load paths tabs) : tabs.map Tab.path = paths.map some := by
  induction opened with
  | nil => rfl
  | cons made later inductionHypothesis =>
      rw [List.map_cons, List.map_cons, path_of_made made, inductionHypothesis]

/-- The last tab is made from the last path. -/
theorem Opened.last {paths : List String} {before : List (Tab κ)} {tab : Tab κ}
    (opened : Opened settings metrics load paths (before ++ [tab])) :
    ∃ path, paths.getLast? = some path ∧ tab.MadeBy settings metrics (.openFile load path) := by
  have turned := List.forall₂_reverse_iff.mpr opened
  rw [List.reverse_append, List.reverse_singleton] at turned
  cases ends : paths.reverse with
  | nil =>
      rw [ends] at turned
      cases turned
  | cons path rest =>
      rw [ends] at turned
      cases turned with
      | cons made others =>
          refine ⟨path, ?_, made⟩
          rw [← List.head?_reverse, ends]
          rfl

/-- A file that can be opened by itself makes a tab. -/
theorem exists_made {path : String} {opened : Workspace κ}
    (opens : (Workspace.empty settings metrics).openFile load path = .ok (opened, .ok ())) :
    ∃ text editor, load path = .ok text ∧
      Editor.withText settings metrics text = .ok (.ok editor) := by
  obtain ⟨tab, text, loads, reads, -⟩ :=
    (Workspace.opensFile opens).fresh List.not_mem_nil
  exact ⟨text, tab.editor, loads, reads⟩

/-- Files with names of their own are opened one tab each, in order. -/
theorem exists_openAll {paths : List String} (setup : workspace.setup = (settings, metrics))
    (alone : ∀ path ∈ paths, ∃ opened,
      (Workspace.empty settings metrics).openFile load path = .ok (opened, .ok ()))
    (distinct : (paths.map documentName).Nodup)
    (fresh : ∀ path ∈ paths, documentName path ∉ workspace.names) :
    ∃ tabs, openAll load workspace paths = .ok (.ok (tabs.foldl Workspace.append workspace)) ∧
      Opened settings metrics load paths tabs := by
  induction paths generalizing workspace with
  | nil => exact ⟨[], rfl, .nil⟩
  | cons path later inductionHypothesis =>
      obtain ⟨⟨opened, opens⟩, others⟩ := List.forall_mem_cons.mp alone
      obtain ⟨apart, distinctLater⟩ := List.nodup_cons.mp distinct
      obtain ⟨absent, freshLater⟩ := List.forall_mem_cons.mp fresh
      obtain ⟨text, editor, loads, reads⟩ := exists_made opens
      obtain ⟨rfl, rfl⟩ := Prod.mk.inj setup
      let tab : Tab κ := ⟨documentName path, some path, editor⟩
      -- A new tab does not take the name of a file to come.
      have stillFresh : ∀ path ∈ later, documentName path ∉ (workspace.append tab).names := by
        intro other member
        change documentName other ∉ (workspace.tabs ++ [tab]).map Tab.name
        rw [List.map_append, List.mem_append, List.map_singleton, List.mem_singleton, not_or]
        refine ⟨freshLater other member, ?_⟩
        intro same
        exact apart (List.mem_map.mpr ⟨other, member, same⟩)
      have kept : (workspace.append tab).setup = (workspace.settings, workspace.metrics) := rfl
      obtain ⟨tabs, goesOn, made⟩ := inductionHypothesis kept others distinctLater stillFresh
      refine ⟨tab :: tabs, ?_, .cons (.file loads reads) made⟩
      rw [openAll, openFile_eq absent loads reads]
      exact goesOn

/-- What a session with files comes to: one tab a file, in order, and the last one,
which has been prepared, active. -/
structure Delivers (settings : Settings κ) (metrics : GlyphMetrics κ)
    (load : String → Except EditError String) (startup : Startup) (workspace : Workspace κ) :
    Prop where
  paths : workspace.tabs.map Tab.path = startup.files.map some
  active : workspace.active?.map Tab.path = startup.files.getLast?.map some
  made : ∃ before last editor,
    Opened settings metrics load startup.files (before ++ [last]) ∧
      prepared startup last.editor = .ok editor ∧
      workspace.tabs = before ++ [{ last with editor }] ∧
      workspace.active? = some { last with editor }

/-- The rest of a session after the last tab has been opened. -/
theorem finish_append (workspace : Workspace κ) (startup : Startup) (tab : Tab κ) :
    (do
      let workspace ← orUntitled (workspace.append tab)
      match workspace.active? with
      | none => return (.ok workspace : Except Failure (Workspace κ))
      | some tab => return .ok (workspace.withEditor (← prepared startup tab.editor))) =
      (do
        let editor ← prepared startup tab.editor
        return .ok (workspace.append { tab with editor })) := by
  have there : orUntitled (workspace.append tab) = .ok (workspace.append tab) := by
    simp [orUntitled, Workspace.append]
  rw [there]
  change (match (workspace.append tab).active? with
    | none => Except.ok (Except.ok (workspace.append tab))
    | some tab => do return .ok ((workspace.append _).withEditor (← prepared startup tab.editor)))
      = _
  rw [Workspace.active?_append]
  change (prepared startup tab.editor >>= fun editor =>
    Except.ok (Except.ok ((workspace.append tab).withEditor editor))) = _
  simp only [Workspace.append_withEditor]
  rfl

/-- A session opens the files and prepares the last of them. -/
theorem exists_session_eq {startup : Startup}
    (openable : Openable settings metrics load startup.files) :
    ∃ before last, Opened settings metrics load startup.files (before ++ [last]) ∧
      session settings metrics load startup = (do
        let editor ← prepared startup last.editor
        return .ok ((before.foldl Workspace.append (.empty settings metrics)).append
          { last with editor })) := by
  have fresh : ∀ path ∈ startup.files,
      documentName path ∉ (Workspace.empty settings metrics).names :=
    fun _ _ => List.not_mem_nil
  obtain ⟨tabs, opens, opened⟩ := exists_openAll rfl openable.alone openable.distinct fresh
  have filled : tabs ≠ [] := by
    rintro rfl
    exact openable.given (List.map_eq_nil_iff.mp opened.paths_eq.symm)
  obtain ⟨before, last, rfl⟩ := List.eq_nil_or_concat tabs |>.resolve_left filled
  rw [List.concat_eq_append] at opens opened
  refine ⟨before, last, opened, ?_⟩
  rw [session, opens, List.foldl_append, List.foldl_cons, List.foldl_nil]
  exact finish_append _ startup last

/-- Opened tabs, the last one prepared, are what a session delivers. -/
theorem Opened.delivers {startup : Startup} {before : List (Tab κ)} {last : Tab κ}
    {editor : Editor κ} (opened : Opened settings metrics load startup.files (before ++ [last]))
    (prepares : prepared startup last.editor = .ok editor) :
    Delivers settings metrics load startup
      ((before.foldl Workspace.append (.empty settings metrics)).append { last with editor }) := by
  have tabs : ((before.foldl Workspace.append (.empty settings metrics)).append
      { last with editor }).tabs = before ++ [{ last with editor }] :=
    congrArg (· ++ [_]) (Workspace.tabs_foldl_append before (.empty settings metrics))
  have paths : (before ++ [{ last with editor }]).map Tab.path = startup.files.map some := by
    rw [← opened.paths_eq, List.map_append, List.map_append]
    rfl
  refine ⟨tabs ▸ paths, ?_, before, last, editor, opened, prepares, tabs,
    Workspace.active?_append _ _⟩
  rw [Workspace.active?_append, ← List.getLast?_map, ← paths, List.map_append,
    List.map_singleton, List.getLast?_concat]
  rfl

/-- Whatever a session with files that can be opened comes to, it delivers them. -/
theorem Openable.delivers {startup : Startup} {outcome : Except Failure (Workspace κ)}
    (openable : Openable settings metrics load startup.files)
    (goes : session settings metrics load startup = .ok outcome) :
    ∃ workspace, outcome = .ok workspace ∧ Delivers settings metrics load startup workspace := by
  obtain ⟨before, last, opened, same⟩ := exists_session_eq openable
  rw [same] at goes
  obtain ⟨editor, prepares, ends⟩ := exists_of_bind goes
  exact ⟨_, (Except.ok.inj ends).symm, opened.delivers prepares⟩

/-- A session with files that can be opened has the last of them active, and shows
without text to type what there is at its path. -/
theorem Openable.concludes {startup : Startup} (word : settings.capacity ≤ Word.largest)
    (openable : Openable settings metrics load startup.files) :
    Concludes (startup.typed = none ∨ settings.Roomy)
      (fun outcome => ∃ workspace tab target path text, outcome = .ok workspace ∧
        workspace.active? = some tab ∧ Serves settings tab.editor target ∧
        load path = .ok text ∧
        (startup.typed = none → target.text.length = joinedLength (segments text.toList)))
      (session settings metrics load startup) := by
  obtain ⟨before, last, opened, same⟩ := exists_session_eq openable
  obtain ⟨path, -, made⟩ := opened.last
  rw [same]
  cases made with
  | @file _ _ text editor loads reads =>
      refine (prepared_concludes (Editor.serves_of_withText word reads) startup).bind ?_
      rintro edited ⟨target, serves, kept⟩
      refine ⟨_, _, target, path, text, rfl, Workspace.active?_append _ _, serves, loads, ?_⟩
      intro nothing
      rw [kept nothing, Draft.length_text_pasted _ (segments_ne_nil text.toList)]
      exact Nat.zero_add _

end Opening

end CommandLine

end EditorCore
