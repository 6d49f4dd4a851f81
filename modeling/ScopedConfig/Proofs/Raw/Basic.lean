import ScopedConfig.Proofs.Arena.Writing

/-!
# Raw arenas

An arena can be worked on call by call, with none of the checks that the operations make: a scope
is created and held by nobody, an entry links a scope of another parent or one that does not exist,
a policy is loosened, and an earlier copy of the arena is put back while the cursor stays where it
is, so that the numbers it knows are gone or mean other scopes.

A call is done in steps. A step that fails ends the call, and what the steps in front of it did
stays done: nothing is rolled back. A run goes on after a call that failed.

Key definitions: `Raw`, `Raw.Steps`, `Raw.enter`, `Raw.reenter`, `Raw.pop`, `Raw.Call`, `Raw.run`.
-/

namespace ScopedConfig

/-- An arena that is worked on call by call, the cursor on it, and the copies put aside. -/
structure Raw (V : Type) where
  arena : Arena V
  cursor : Cursor
  copies : List (Arena V)

namespace Raw

variable {V α : Type}

/-- An arena with a root scope alone, and nothing put aside. -/
def ofPolicy (policy : Policy) : Raw V :=
  ⟨.ofPolicy policy, none, []⟩

/-- What a call does, in steps: a step that fails ends it and undoes nothing. -/
abbrev Steps (V α : Type) : Type :=
  EStateM Fault (Raw V) α

/-- What a call leaves, whether it failed or not. -/
def left : EStateM.Result Fault (Raw V) α → Raw V
  | .ok _ r => r
  | .error _ r => r

/-! ### Steps -/

/-- Reads something off the arena. -/
def reading (f : Arena V → Except Fault α) : Steps V α := fun r =>
  match f r.arena with
  | .error e => .error e r
  | .ok x => .ok x r

/-- Changes the arena once. -/
def changing (f : Arena V → Except Fault (α × Arena V)) : Steps V α := fun r =>
  match f r.arena with
  | .error e => .error e r
  | .ok (x, a) => .ok x { r with arena := a }

/-- Sends the cursor somewhere else. -/
def moveTo (c : Cursor) : Steps V Unit :=
  modify ({ · with cursor := c })

/-! ### Calls of the cursor -/

/-- Opens a new anonymous scope in the scope that a path leads to. -/
def enter (path : List Step) : Steps V ScopeId := do
  match (← get).cursor with
  | some _ => throw .alreadyOpen
  | none =>
    let parent ← reading (·.resolve path)
    reading (Cursor.ensureOpen · parent)
    let id ← changing (·.addChild parent)
    moveTo (some ⟨path, id⟩)
    return id

/-- Appends the open scope to its parent's list, and only then opens a new one there. -/
def reenter : Steps V ScopeId := do
  match (← get).cursor with
  | none => throw .nothingOpen
  | some o =>
    let parent ← reading o.parent
    reading (Cursor.ensureOpen · parent)
    let _ ← changing (·.append o.id)
    let id ← changing (·.addChild parent)
    -- the parent is read once more, to log how many scopes it has now
    let _ ← reading (·.scope parent)
    moveTo (some ⟨o.parentPath, id⟩)
    return id

/-- Appends the open scope, if there is one, to its parent's list, and only then leaves it. -/
def pop : Steps V (Option ScopeId) := do
  match (← get).cursor with
  | none => return none
  | some o =>
    let _ ← reading o.parent
    let _ ← changing (·.append o.id)
    moveTo none
    return some o.id

/-! ### All calls -/

/-- What can be done to a raw arena. -/
inductive Call (V : Type)
  | addChild (parent : ScopeId)
  | put (id : ScopeId) (key : String) (entry : Entry V)
  | setPolicy (id : ScopeId) (policy : Policy)
  | append (child : ScopeId)
  | enter (path : List Step)
  | reenter
  | pop
  /-- Leave the open scope without appending it. -/
  | toRoot
  /-- Put a copy of the arena aside. -/
  | save
  /-- Put a copy back, the cursor staying as it is; copies count from the latest. -/
  | restore (n : Nat)

/-- What a call leaves. -/
def perform (r : Raw V) : Call V → Raw V
  | .addChild parent => left (changing (·.addChild parent) r)
  | .put id key entry => left (changing (·.put id key entry) r)
  | .setPolicy id policy => left (changing (fun a => (a.setPolicy id policy).map ((), ·)) r)
  | .append child => left (changing (·.append child) r)
  | .enter path => left (enter path r)
  | .reenter => left (reenter r)
  | .pop => left (pop r)
  | .toRoot => left (moveTo none r)
  | .save => { r with copies := r.arena :: r.copies }
  | .restore n => { r with arena := r.copies[n]?.getD r.arena }

/-- Does calls one after the other. -/
def run (r : Raw V) (calls : List (Call V)) : Raw V :=
  calls.foldl perform r

end Raw

end ScopedConfig
