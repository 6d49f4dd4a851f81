import ScopedConfig.Workspace.Assign
import ScopedConfig.Workspace.Create
import ScopedConfig.Workspace.LookUp

/-!
# Operations

The operations of a workspace as data, with the answer each one gives. A run is a list of them; it
goes on after a refusal.

Key definitions: `Operation`, `Reply`, `Workspace.apply`, `Workspace.run`.
-/

namespace ScopedConfig

/-- What can be asked of a workspace. -/
inductive Operation (V : Type)
  /-- Create the scope at a name, or open an anonymous one in it. -/
  | createNamed (name : String)
  /-- Assign a value to a name. -/
  | assign (name : String) (v : V)
  /-- Assign a value to a key of the scope that the cursor stands in. -/
  | assignLocal (text : String) (v : V)
  /-- Look up a name. -/
  | lookUp (name : String)
  /-- Refuse overwriting in a scope from now on. -/
  | finalize (name? : Option String)
  /-- Refuse additions to a scope from now on. -/
  | close (name? : Option String)
  /-- Ask for the policy of a scope. -/
  | policy (name? : Option String)
  /-- Append the open anonymous scope to its parent's list. -/
  | pop

/-- What an operation answers. -/
inductive Reply (V : Type)
  | done
  | found (what : Found V)
  | policy (policy : Policy)

namespace Workspace

variable {V : Type}

/-- Does an operation. -/
def apply (w : Workspace V) : Operation V → Except Fault (Reply V) × Workspace V
  | .createNamed name => reply (fun _ => .done) (w.createNamed name)
  | .assign name v => reply (fun _ => .done) (w.assign name v)
  | .assignLocal text v => reply (fun _ => .done) (w.assignLocal text v)
  | .lookUp name => reply .found (w.lookUp name)
  | .finalize name? => reply (fun _ => .done) (w.protect name? .finalized)
  | .close name? => reply (fun _ => .done) (w.protect name? .closed)
  | .policy name? => reply .policy (w.policyOf name?)
  | .pop =>
    match w.popAnonymous with
    | .error e => (.error e, w)
    | .ok w => (.ok .done, w)
where
  /-- Turns an answer into a reply. -/
  reply {α : Type} (f : α → Reply V) (r : Except Fault α × Workspace V) :
      Except Fault (Reply V) × Workspace V :=
    (r.1.map f, r.2)

/-- Does operations one after the other. -/
def run (w : Workspace V) (ops : List (Operation V)) : Workspace V :=
  ops.foldl (fun w op => (w.apply op).2) w

end Workspace

end ScopedConfig
