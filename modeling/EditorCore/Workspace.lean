import EditorCore.Editor.Host
import EditorCore.Files.Document

/-!
Contract: the open documents, one of them active.

Owns:
- tabs, which give an editor a name and perhaps the path of a file;
- the tabs in the order they were opened in, with the index of the active one;
- opening, activating and closing by name, and what saving writes.

Does not own: where documents come from.
-/

namespace EditorCore

/-- An open document. -/
structure Tab (κ : Type) where
  name : String
  /-- The file that the document was opened from. -/
  path : Option String
  editor : Editor κ

/-- The open documents, and what new editors are made with. -/
structure Workspace (κ : Type) where
  settings : Settings κ
  metrics : GlyphMetrics κ
  /-- In the order they were opened in. -/
  tabs : List (Tab κ)
  /-- The index of the active tab. -/
  active : Option Nat

namespace Workspace

variable {κ : Type}

/-- A workspace without documents. -/
def empty (settings : Settings κ) (metrics : GlyphMetrics κ) : Workspace κ :=
  { settings, metrics, tabs := [], active := none }

/-! ## Looking up -/

/-- The index of the first tab of a name. -/
def position? (workspace : Workspace κ) (name : String) : Option Nat :=
  workspace.tabs.findIdx? fun tab => tab.name = name

def contains (workspace : Workspace κ) (name : String) : Bool :=
  (workspace.position? name).isSome

def active? (workspace : Workspace κ) : Option (Tab κ) :=
  workspace.active.bind (workspace.tabs[·]?)

def tab? (workspace : Workspace κ) (name : String) : Option (Tab κ) :=
  (workspace.position? name).bind (workspace.tabs[·]?)

/-! ## Activating and closing -/

/-- Make the tab of a name active.  The answer tells whether there is one. -/
def activate (workspace : Workspace κ) (name : String) : Workspace κ × Bool :=
  match workspace.position? name with
  | some index => ({ workspace with active := some index }, true)
  | none => (workspace, false)

/-- The index of the active tab once the tab at some index is removed: the one on
the left takes the place of the active tab, and tabs behind the gap move up. -/
def renumbered (removed active : Nat) : Nat :=
  if active = removed then removed - 1
  else if removed < active then active - 1
  else active

/-- Close the tab of a name.  The answer tells whether there was one. -/
def close (workspace : Workspace κ) (name : String) : Workspace κ × Bool :=
  match workspace.position? name with
  | none => (workspace, false)
  | some index =>
      let tabs := workspace.tabs.eraseIdx index
      let active := if tabs.isEmpty then none else workspace.active.map (renumbered index)
      ({ workspace with tabs, active }, true)

/-- Put another editor into the active tab. -/
def withEditor (workspace : Workspace κ) (editor : Editor κ) : Workspace κ :=
  match workspace.active with
  | some index =>
      { workspace with tabs := workspace.tabs.modify index fun tab => { tab with editor } }
  | none => workspace

/-! ## Opening -/

/-- Add a tab at the end and make it active. -/
def append (workspace : Workspace κ) (tab : Tab κ) : Workspace κ :=
  let tabs := workspace.tabs ++ [tab]
  { workspace with tabs, active := some (tabs.length - 1) }

variable [Coordinate κ]

/-- Open a text under a name.  A name that is open already is made active and
keeps its document; a text that does not fit changes nothing. -/
def openText (workspace : Workspace κ) (name : String) (path : Option String) (text : String) :
    Checked (Workspace κ × Except EditError Unit) := do
  match workspace.position? name with
  | some index => return ({ workspace with active := some index }, .ok ())
  | none =>
      match ← Editor.withText workspace.settings workspace.metrics text with
      | .error refusal => return (workspace, .error refusal)
      | .ok editor => return (workspace.append { name, path, editor }, .ok ())

/-- Open the file at a path under its document's name.  The file is loaded only
if no document of that name is open. -/
def openFile (workspace : Workspace κ) (load : String → Except EditError String)
    (path : String) : Checked (Workspace κ × Except EditError Unit) :=
  let name := documentName path
  match workspace.position? name with
  | some index => .ok ({ workspace with active := some index }, .ok ())
  | none =>
      match load path with
      | .error refusal => .ok (workspace, .error refusal)
      | .ok text => workspace.openText name (some path) text

/-- What saving the active document writes, and where. -/
def saveRequest (workspace : Workspace κ) : Except EditError (String × String) :=
  match workspace.active? with
  | none => .error (.writing "No active tab")
  | some tab =>
      match tab.path with
      | none => .error (.writing (tab.name ++ " has no backing file"))
      | some path => .ok (path, tab.editor.textForSave)

end Workspace

end EditorCore
