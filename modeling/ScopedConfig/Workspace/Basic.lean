import ScopedConfig.Address.Shorthand
import ScopedConfig.Arena.Walk
import ScopedConfig.Cursor

/-!
# Workspaces

A workspace is what a document is read into: the arena of its scopes, the cursor, and the segments
of the last address a scope was created at, which the leading dots of the next name stand for.

An operation that is given a name reads the name first, and a name that cannot be read changes
nothing. It then appends the open anonymous scope to its parent's list and works from the root. An
operation without a name works on the scope that the cursor stands in. A walk that is refused keeps
the scopes it created before, so an operation gives its answer and the new workspace apart.

Key definitions: `Workspace`, `Workspace.ofPolicy`, `Workspace.popAnonymous`.
-/

namespace ScopedConfig

/-- The state of a document that is being read. -/
structure Workspace (V : Type) where
  arena : Arena V
  cursor : Cursor
  /-- The segments of the last address, as they were written. -/
  remembered : List String
  /-- An anonymous scope was opened and not left since. -/
  isUsingArray : Bool

namespace Workspace

variable {V : Type}

/-- A workspace with an empty root scope that has a policy, and segments to start from. -/
def ofPolicy (policy : Policy) (remembered : List String) : Workspace V :=
  ⟨.ofPolicy policy, none, remembered, false⟩

/-- A workspace with nothing in it and nothing refused. -/
def empty : Workspace V :=
  .ofPolicy .default []

/-- The address that a name stands for. -/
def address (w : Workspace V) (name : String) : Except Fault Address :=
  Address.ofName name w.remembered

/-- Appends the open anonymous scope, if there is one, to its parent's list. -/
def popAnonymous (w : Workspace V) : Except Fault (Workspace V) :=
  (w.cursor.pop w.arena).map fun (_, cursor, arena) =>
    { w with arena := arena, cursor := cursor, isUsingArray := false }

/-- The scope that the cursor stands in. -/
def currentScope (w : Workspace V) : Except Fault ScopeId :=
  w.cursor.current w.arena

end Workspace

end ScopedConfig
