import ScopedConfig.Workspace.Basic

/-!
# Looking up and protecting

A look-up follows a name to a value or a scope; what stands in the name behind a value is ignored.
A policy belongs to the scope that a name leads to, or to the one that the cursor stands in when
there is no name.

Key definitions: `Workspace.lookUp`, `Workspace.protect`, `Workspace.policyOf`.
-/

namespace ScopedConfig.Workspace

variable {V : Type}

/-- What a name leads to. -/
def lookUp (w : Workspace V) (name : String) : Except Fault (Found V) × Workspace V :=
  match w.address name with
  | .error e => (.error e, w)
  | .ok address =>
    if address.isAnonymous then
      (.error (.anonymousTarget address.text), w)
    else
      match w.popAnonymous with
      | .error e => (.error e, w)
      | .ok w => (w.arena.lookUp address.text .root address.segments, w)

/-- The scope whose policy is meant: the one that a name leads to, or the cursor's. -/
def policyTarget (w : Workspace V) (name? : Option String) : Except Fault ScopeId × Workspace V :=
  match name? with
  | none => (w.currentScope, w)
  | some name =>
    match w.lookUp name with
    | (.error e, w) => (.error e, w)
    | (.ok (.scope id), w) => (.ok id, w)
    | (.ok (.value _), w) => (.error (.valueNotScope name), w)
    | (.ok .nothing, w) => (.error (.noSuchScope name), w)

/-- The policy of a scope. -/
def policyOf (w : Workspace V) (name? : Option String) : Except Fault Policy × Workspace V :=
  match w.policyTarget name? with
  | (.error e, w) => (.error e, w)
  | (.ok id, w) => ((w.arena.scope id).map (·.policy), w)

/-- Moves the policy of a scope. -/
def protect (w : Workspace V) (name? : Option String) (move : Policy → Policy) :
    Except Fault Unit × Workspace V :=
  match w.policyTarget name? with
  | (.error e, w) => (.error e, w)
  | (.ok id, w) =>
    match (w.arena.scope id).bind fun s => w.arena.setPolicy id (move s.policy) with
    | .error e => (.error e, w)
    | .ok arena => (.ok (), { w with arena := arena })

end ScopedConfig.Workspace
