import EditorCore.Cursor

/-!
Contract: news about the caret for status displays.

Owns: the events, and `CursorWatch`, which compares each position it is shown
with the last one and queues what changed.

Does not own: when positions are shown to it.
-/

namespace EditorCore

/-- What a status display has to redraw. -/
inductive CursorEvent where
  | lineChanged (line : Nat)
  | columnChanged (column : Nat)
deriving DecidableEq, Repr

/-- The last position seen and the events not yet fetched. -/
structure CursorWatch where
  previous : Position
  pending : List CursorEvent
deriving DecidableEq, Repr

namespace CursorWatch

/-- Nothing has happened at the start of a document. -/
def fresh : CursorWatch := { previous := Position.zero, pending := [] }

/-- What changed between two positions.  A new line brings its column along,
because columns are counted on it. -/
def changes (previous current : Position) : List CursorEvent :=
  if current.line ≠ previous.line then [.lineChanged current.line, .columnChanged current.column]
  else if current.column ≠ previous.column then [.columnChanged current.column]
  else []

def observe (watch : CursorWatch) (position : Position) : CursorWatch :=
  { previous := position, pending := watch.pending ++ changes watch.previous position }

/-- Fetch the queued events in order, leaving none. -/
def drain (watch : CursorWatch) : CursorWatch × List CursorEvent :=
  ({ watch with pending := [] }, watch.pending)

def hasPending (watch : CursorWatch) : Bool := !watch.pending.isEmpty

end CursorWatch

end EditorCore
