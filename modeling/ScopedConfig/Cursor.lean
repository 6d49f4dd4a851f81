import ScopedConfig.Arena.Describe

/-!
# The cursor

The cursor stands at the root, or in one anonymous scope that is open. An open scope is not held by
its parent yet: it joins the parent's list when the cursor leaves it. The cursor keeps the path to
the parent and follows it anew each time, so a parent that was replaced behind its back is noticed
and nothing is written into a scope that no path reaches. Every operation that fails leaves cursor
and arena as they were.

Key definitions: `Cursor`, `Arena.resolve`, `Cursor.enter`, `Cursor.reenter`, `Cursor.pop`,
`Cursor.current`.
-/

namespace ScopedConfig

/-- An anonymous scope that is open. -/
structure OpenScope where
  /-- The path to the scope it was created in. -/
  parentPath : List Step
  id : ScopeId
  deriving DecidableEq

/-- Where the next anonymous scope and the local keys go: into the open scope, or to the root. -/
abbrev Cursor := Option OpenScope

namespace Arena

variable {V : Type}

/-- The scope that a step leads to from another one. -/
def stepFrom (a : Arena V) (id : ScopeId) (step : Step) : Except Fault ScopeId :=
  match a.scope id with
  | .error e => .error e
  | .ok s =>
    let next :=
      match step with
      | .key k => (s.find? k).bind Entry.scope?
      | .index i => s.appended[i]?
    match next with
    | some next => .ok next
    | none => .error (.staleStep step (a.describe id))

/-- Follows a path from a scope. -/
def follow (a : Arena V) (id : ScopeId) : List Step → Except Fault ScopeId
  | [] => .ok id
  | step :: path =>
    match a.stepFrom id step with
    | .error e => .error e
    | .ok next => follow a next path

/-- Follows a path from the root. -/
def resolve (a : Arena V) (path : List Step) : Except Fault ScopeId :=
  a.follow .root path

end Arena

namespace OpenScope

variable {V : Type}

/-- The parent of the open scope, which has to be the scope that the path leads to. -/
def parent (o : OpenScope) (a : Arena V) : Except Fault ScopeId :=
  match a.resolve o.parentPath with
  | .error e => .error e
  | .ok parent =>
    match a.scope o.id with
    | .error e => .error e
    | .ok s =>
      if s.parent? = some parent then .ok parent
      else .error (.parentChanged (a.describe parent))

end OpenScope

namespace Cursor

variable {V : Type}

/-- Refuses a scope that is closed to new anonymous scopes. -/
def ensureOpen (a : Arena V) (id : ScopeId) : Except Fault Unit :=
  match a.scope id with
  | .error e => .error e
  | .ok s => if s.policy.isClosed then .error (.appendToClosed (a.describe id)) else .ok ()

/-- The scope that the cursor stands in. -/
def current (c : Cursor) (a : Arena V) : Except Fault ScopeId :=
  match c with
  | none => .ok .root
  | some o => (o.parent a).map fun _ => o.id

/-- The parent of the open scope, if one is open. -/
def parent? (c : Cursor) (a : Arena V) : Except Fault (Option ScopeId) :=
  match c with
  | none => .ok none
  | some o => (o.parent a).map some

/-- Opens a new anonymous scope in the scope that a path leads to. None may be open. -/
def enter (c : Cursor) (a : Arena V) (parentPath : List Step) :
    Except Fault (ScopeId × Cursor × Arena V) :=
  match c with
  | some _ => .error .alreadyOpen
  | none =>
    match a.resolve parentPath with
    | .error e => .error e
    | .ok parent =>
      match ensureOpen a parent with
      | .error e => .error e
      | .ok () =>
        (a.addChild parent).map fun (id, a) => (id, some ⟨parentPath, id⟩, a)

/-- Appends the open scope to its parent's list and opens a new one there. -/
def reenter (c : Cursor) (a : Arena V) : Except Fault (ScopeId × Cursor × Arena V) :=
  match c with
  | none => .error .nothingOpen
  | some o =>
    match o.parent a with
    | .error e => .error e
    | .ok parent =>
      match ensureOpen a parent with
      | .error e => .error e
      | .ok () =>
        match a.append o.id with
        | .error e => .error e
        | .ok (_, a) =>
          (a.addChild parent).map fun (id, a) => (id, some ⟨o.parentPath, id⟩, a)

/-- Appends the open scope, if there is one, to its parent's list and goes back to the root. -/
def pop (c : Cursor) (a : Arena V) : Except Fault (Option ScopeId × Cursor × Arena V) :=
  match c with
  | none => .ok (none, none, a)
  | some o =>
    match o.parent a with
    | .error e => .error e
    | .ok _ => (a.append o.id).map fun (_, a) => (some o.id, none, a)

end Cursor

end ScopedConfig
