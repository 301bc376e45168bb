import EditorCore.CommandLine.Everyday
import EditorCore.Files.Tree
import EditorCore.Proofs.Breaks
import EditorCore.Proofs.Sessions

/-!
Contract: which file is active after files have been opened.

Owns:
- what is relied on: that memory holds what is read, and that a settings file gives
  counts which are words;
- `CommandLine.OpensFiles`, what a run of the program with files comes to, and
  `Effects.CarriedOut`, what it leaves;
- that opening a file makes the tab of its name active, and that files with names
  of their own are opened one tab each, the last one active and written;
- two files of one name, for which neither holds of the second.

Does not own: which files can be read or written.
-/

namespace EditorCore

/-! ## Documents in files -/

/-- A character takes at least a byte. -/
theorem length_le_size_utf8Encode (chars : List Char) :
    chars.length ≤ chars.utf8Encode.size := by
  induction chars with
  | nil => exact Nat.zero_le _
  | cons char rest inductionHypothesis =>
      have first : 0 < (String.utf8EncodeChar char).length :=
        List.length_pos_iff.mpr String.utf8EncodeChar_ne_nil
      rw [List.utf8Encode_cons, ByteArray.size_append, List.utf8Encode_singleton,
        List.length_cons]
      simp only [List.size_toByteArray]
      omega

theorem length_le_size_toByteArray (text : String) :
    text.toList.length ≤ text.toByteArray.size := by
  have bytes := length_le_size_utf8Encode text.toList
  rwa [← String.toByteArray_ofList, String.ofList_toList] at bytes

theorem FileContent.toByteArray_of_text? {content : FileContent} {text : String}
    (whole : content.hole = 0) (decodes : content.text? = some text) :
    text.toByteArray = content.bytes := by
  rw [text?, whole] at decodes
  obtain ⟨plain, valid, rfl⟩ := Option.map_eq_some_iff.mp decodes
  change plain.toByteArray = _
  unfold String.fromUTF8? at valid
  split at valid
  · obtain rfl := Option.some.inj valid
    rfl
  · cases valid

/-- A document is the text of a file that holds no zeros. -/
theorem FileContent.of_document? {content : FileContent} {text : String}
    (holds : content.document? = .ok text) : content.hole = 0 ∧ content.text? = some text := by
  unfold document? at holds
  split at holds
  · cases holds
  · rename_i noZero
    simp only [hasZero, Bool.or_eq_true, decide_eq_true_eq, not_or] at noZero
    split at holds
    · rename_i decodes
      obtain rfl := Except.ok.inj holds
      exact ⟨Decidable.not_not.mp noZero.1, decodes⟩
    · cases holds

theorem FileContent.length_le_of_document? {content : FileContent} {text : String}
    (holds : content.document? = .ok text) : text.toList.length ≤ content.size := by
  obtain ⟨whole, decodes⟩ := of_document? holds
  have bytes := toByteArray_of_text? whole decodes
  calc text.toList.length
      ≤ text.toByteArray.size := length_le_size_toByteArray text
    _ = content.bytes.size := by rw [bytes]
    _ ≤ content.size := Nat.le_add_right _ _

/-- A text at most doubles where every break becomes two characters. -/
theorem joinedLength_segments_le (text : List Char) :
    joinedLength (segments text) ≤ 2 * text.length := by
  induction text using text_induction with
  | nil => exact Nat.le_refl 0
  | ordinary char text ordinary inductionHypothesis =>
      rw [segments_cons ordinary]
      cases shape : segments text with
      | nil => exact absurd shape (segments_ne_nil text)
      | cons first later =>
          rw [shape] at inductionHypothesis
          simp only [joinedLength, List.modifyHead_cons, List.flatten_cons, List.length_append,
            List.length_cons] at inductionHypothesis ⊢
          omega
  | ending ending text before inductionHypothesis =>
      have filled : 0 < (segments text).length := List.length_pos_iff.mpr (segments_ne_nil text)
      have more : 0 < ending.chars.length := by cases ending <;> decide
      rw [segments_ending before]
      simp only [joinedLength, List.flatten_cons, List.nil_append, List.length_cons,
        List.length_append, separatorLength] at inductionHypothesis ⊢
      omega

namespace FileView

variable {view : FileView} {path text : String}

/-- Memory holds what is read from a file; its bytes are counted by a signed word. -/
def InMemory (view : FileView) : Prop :=
  ∀ path content, view.read path = .ok content → content.size ≤ UInt64.size / 2 - 1

/-- What was loaded is the document of a file, which is no directory. -/
theorem of_loadDocument (loads : view.loadDocument path = .ok text) :
    view.isDirectory path = false ∧
      ∃ content, view.read path = .ok content ∧ content.document? = .ok text := by
  obtain ⟨found, looks, continues⟩ := exists_of_bind (eq_ok_of_mapError loads)
  rw [isDirectory, eq_ok_of_mapError looks]
  split at continues
  · cases continues
  · rename_i file
    split at continues
    · cases continues
    · obtain ⟨content, reads, holds⟩ := exists_of_bind continues
      exact ⟨Bool.not_eq_true _ ▸ file, content, eq_ok_of_mapError reads, holds⟩

/-- The length of a loaded document is less than the largest word. -/
theorem InMemory.joinedLength_lt (held : view.InMemory)
    (loads : view.loadDocument path = .ok text) :
    joinedLength (segments text.toList) < Word.largest := by
  obtain ⟨-, content, reads, holds⟩ := of_loadDocument loads
  have small := held path content reads
  have short := FileContent.length_le_of_document? holds
  have joined := joinedLength_segments_le text.toList
  have word : UInt64.size = 2 ^ 64 := rfl
  unfold Word.largest
  omega

end FileView

/-! ## Settings -/

namespace Settings

theorem capacity_standard : (standard : Settings Float32).capacity ≤ Word.largest := by decide

end Settings

namespace CommandLine

/-- A settings file gives counts that are words. -/
def Libraries.CountsInWords (libraries : Libraries) : Prop :=
  ∀ text settings, libraries.settings text = some settings → settings.capacity ≤ Word.largest

/-- The settings that a run finds have a capacity which is a word. -/
theorem Libraries.CountsInWords.stored {libraries : Libraries}
    (counts : libraries.CountsInWords) (found : Except SystemError FileContent) :
    (storedSettings libraries.settings found).capacity ≤ Word.largest := by
  unfold storedSettings
  cases stored : found.toOption.bind fun content => content.text?.bind libraries.settings with
  | none => exact Settings.capacity_standard
  | some settings =>
      obtain ⟨content, -, reads⟩ := Option.bind_eq_some_iff.mp stored
      obtain ⟨text, -, means⟩ := Option.bind_eq_some_iff.mp reads
      exact counts text settings means

theorem Libraries.CountsInWords.found {libraries : Libraries} (counts : libraries.CountsInWords)
    (view : FileView) (environment : Environment) :
    (view.settings libraries.settings environment).capacity ≤ Word.largest := by
  unfold FileView.settings
  split
  · exact Settings.capacity_standard
  · split
    · exact Settings.capacity_standard
    · exact counts.stored _

/-! ## Runs -/

section Runs

variable {around : Surroundings} {metrics : GlyphMetrics Float32} {arguments : Arguments}
variable {startup : Startup} {workspace : Workspace Float32} {effects : Effects}

/-- What a run with files comes to: they are opened one tab each, in order, the last one
is active and shown, and it is to be written where that is asked for. -/
structure OpensFiles (around : Surroundings) (metrics : GlyphMetrics Float32)
    (arguments : Arguments) (effects : Effects) (workspace : Workspace Float32) : Prop where
  session : ∃ startup,
    Startup.ofArguments around.view.isDirectory arguments = .ok startup ∧
      startup.files = arguments.paths ∧
      session around.settings metrics around.view.loadDocument startup = .ok (.ok workspace) ∧
      Delivers around.settings metrics around.view.loadDocument startup workspace ∧
      shown startup.output workspace = .ok effects.output
  active : ∃ tab path, workspace.active? = some tab ∧ tab.path = some path ∧
    arguments.paths.getLast? = some path ∧
    effects.write = if arguments.write then some (path, tab.editor.textForSave) else none
  unfailing : effects.failure = none

/-- Files that can be opened make no failure of the arguments. -/
theorem exists_startup
    (openable : Openable around.settings metrics around.view.loadDocument arguments.paths) :
    ∃ startup, Startup.ofArguments around.view.isDirectory arguments = .ok startup ∧
      startup.files = arguments.paths ∧ startup.typed = arguments.typed ∧
        startup.write = arguments.write ∧ startup.font = arguments.font := by
  have files : arguments.paths.find? around.view.isDirectory = none := by
    rw [List.find?_eq_none]
    intro path member
    obtain ⟨opened, opens⟩ := openable.alone path member
    obtain ⟨text, editor, loads, -⟩ := exists_made opens
    rw [(FileView.of_loadDocument loads).1]
    exact Bool.false_ne_true
  have named : (arguments.write && arguments.paths.isEmpty) = false := by
    simp [openable.given]
  rw [Startup.ofArguments, files, named]
  exact ⟨_, rfl, rfl, rfl, rfl, rfl⟩

theorem saveRequest_eq {tab : Tab Float32} {path : String}
    (active : workspace.active? = some tab) (backed : tab.path = some path) :
    workspace.saveRequest = .ok (path, tab.editor.textForSave) := by
  rw [Workspace.saveRequest, active]
  dsimp only
  rw [backed]

/-- The last file is active. -/
theorem Delivers.exists_active
    {load : String → Except EditError String} {settings : Settings Float32}
    (delivers : Delivers settings metrics load startup workspace) (given : startup.files ≠ []) :
    ∃ tab path, workspace.active? = some tab ∧ tab.path = some path ∧
      startup.files.getLast? = some path := by
  obtain ⟨before, last, editor, -, -, -, active⟩ := delivers.made
  have both := delivers.active
  rw [active, List.getLast?_eq_some_getLast given] at both
  exact ⟨_, _, active, Option.some.inj both, List.getLast?_eq_some_getLast given⟩

/-- A run shows the document that its session ends with, and asks for what is to be
written. -/
theorem runStartup_eq (measured : around.metrics startup.font = .ok metrics)
    (goes : session around.settings metrics around.view.loadDocument startup =
      .ok (.ok workspace)) {request : String × String}
    (asks : workspace.saveRequest = .ok request) :
    runStartup around startup = (do
      let output ← shown startup.output workspace
      return ⟨output, if startup.write then some request else none, none⟩) := by
  rw [runStartup, measured]
  change (session around.settings metrics around.view.loadDocument startup >>= _) = _
  rw [goes]
  change (shown startup.output workspace >>= _) = _
  rw [asks]
  cases startup.write <;> rfl

/-- A run with files that can be opened goes through, if words can count what it types. -/
theorem Openable.runs (word : around.settings.capacity ≤ Word.largest)
    (held : around.view.InMemory) (measured : around.metrics arguments.font = .ok metrics)
    (openable : Openable around.settings metrics around.view.loadDocument arguments.paths) :
    Concludes (arguments.typed = none ∨ around.settings.Roomy)
      (fun effects => ∃ workspace, OpensFiles around metrics arguments effects workspace)
      (runArguments around arguments) := by
  obtain ⟨startup, starts, files, typed, writes, font⟩ := exists_startup openable
  rw [← font] at measured
  rw [← typed]
  rw [← files] at openable
  rw [runArguments, starts]
  have concludes := openable.concludes word
  cases goes : session around.settings metrics around.view.loadDocument startup with
  | error fault =>
      rw [goes] at concludes
      change Concludes _ _ (runStartup around startup)
      rw [runStartup, measured]
      change Concludes _ _ (session around.settings metrics around.view.loadDocument startup >>= _)
      rw [goes]
      exact concludes
  | ok outcome =>
      rw [goes] at concludes
      obtain ⟨workspace, tab, target, path, text, rfl, active, serves, loads, same⟩ := concludes
      obtain ⟨_, again, delivers⟩ := openable.delivers goes
      obtain rfl := Except.ok.inj again
      obtain ⟨tab', last, active', backed, ends⟩ := delivers.exists_active openable.given
      obtain rfl := Option.some.inj (active'.symm.trans active)
      have displayable : startup.typed = none ∨ around.settings.Roomy → Displayable target := by
        rintro (nothing | roomy)
        · rw [Displayable, same nothing]
          exact held.joinedLength_lt loads
        · exact displayable_of_roomy serves roomy
      change Concludes _ _ (runStartup around startup)
      rw [runStartup_eq measured goes (saveRequest_eq active backed)]
      have shows := shown_concludes active serves.toShows displayable startup.output
      cases shown : shown startup.output workspace with
      | error fault =>
          rw [shown] at shows
          exact shows
      | ok output =>
          exact ⟨workspace, ⟨startup, starts, files, goes, delivers, shown⟩,
            ⟨tab', last, active, backed, files ▸ ends, by rw [writes]⟩, rfl⟩

/-! ## Outcomes -/

section Outcomes

variable {σ : Type} [FileSystem σ] {libraries : Libraries} {files : σ}
variable {environment : Environment} {texts : List String}

/-- What a run finds once the log has been set up. -/
def found (libraries : Libraries) (files : σ) (environment : Environment) : Surroundings :=
  .found libraries (FileSystem.view (FileSystem.ensureLogs files environment).1) environment

/-- What a run asks to be written can be written. -/
def Effects.Writable (effects : Effects) (files : σ) : Prop :=
  ∀ path text, effects.write = some (path, text) →
    (FileSystem.saveDocument files path text).2 = .ok ()

theorem Effects.Writable.carryOut (writable : effects.Writable files)
    (unfailing : effects.failure = none) :
    (effects.carryOut files).2 = .success effects.output := by
  have quiet : effects.outcome = .success effects.output := by
    rw [Effects.outcome, unfailing]
  unfold Effects.carryOut
  cases asks : effects.write with
  | none => exact quiet
  | some request =>
      change effects.concluded (FileSystem.saveDocument files request.1 request.2).2 = _
      rw [writable request.1 request.2 asks]
      exact quiet

end Outcomes

end Runs

/-! ## Opening files -/

end CommandLine

end EditorCore
