import ScopedConfig.Address.Segment
import ScopedConfig.Arena.Describe

/-!
# Walks

A walk follows the segments of an address from the root. A walk that is to write creates the scopes
under the keys that lead nowhere, and replaces the values in its way by scopes, as far as the
policies allow; the scopes it has created stay when it fails further on. A walk that looks up stops
at the first value. A walk that peeks changes nothing and finds scopes alone.

Key definitions: `Arena.walk`, `Arena.lookUp`, `Arena.peek?`, `Arena.write`, `Found`.
-/

namespace ScopedConfig

/-- What a look-up finds. -/
inductive Found (V : Type)
  | value (v : V)
  | scope (id : ScopeId)
  | nothing

namespace Arena

variable {V : Type}

/-! ### Walks that write -/

/-- Creates a scope and puts it under a key. -/
def addUnder (a : Arena V) (id : ScopeId) (key : String) : Except Fault (ScopeId × Arena V) :=
  match a.addChild id with
  | .error e => .error e
  | .ok (child, a) => (a.put id key (.scope child)).map fun (_, a) => (child, a)

/-- Goes to the scope under a key, which is created if need be. -/
def enterKey (a : Arena V) (id : ScopeId) (key : String) : Except Fault (ScopeId × Arena V) :=
  match a.scope id with
  | .error e => .error e
  | .ok s =>
    match s.find? key with
    | some (.scope child) => .ok (child, a)
    | some (.value _) =>
      if s.policy.isFinal then .error (.replaceFinal key (a.describe id)) else a.addUnder id key
    | none =>
      if s.policy.isClosed then .error (.addScopeToClosed key (a.describe id))
      else a.addUnder id key

/-- Goes to an appended scope. -/
def enterIndex (a : Arena V) (id : ScopeId) (i : Nat) : Except Fault ScopeId :=
  match a.scope id with
  | .error e => .error e
  | .ok s =>
    match s.appended[i]? with
    | some child => .ok child
    | none => .error (.indexOutOfRange i (a.describe id) s.appended.length)

/-- Goes to the scope under a key that is to be indexed, which must exist. -/
def enterList (a : Arena V) (id : ScopeId) (key : String) (i : Nat) : Except Fault ScopeId :=
  match a.scope id with
  | .error e => .error e
  | .ok s =>
    match s.find? key with
    | some (.scope child) => .ok child
    | some (.value _) => .error (.indexOnValue key i)
    | none => .error (.nothingAppended (a.describe id) key)

/-- Goes on from a scope by one segment. -/
def enter (a : Arena V) (id : ScopeId) : Segment → Except Fault (ScopeId × Arena V)
  | .key k => a.enterKey id k
  | .index none i => (a.enterIndex id i).map (·, a)
  | .index (some k) i =>
    match a.enterList id k i with
    | .error e => .error e
    | .ok list => (a.enterIndex list i).map (·, a)
  | .anonymous => .error .anonymousInside

/-- Walks from a scope along segments. -/
def walk (a : Arena V) (id : ScopeId) : List Segment → Except Fault ScopeId × Arena V
  | [] => (.ok id, a)
  | segment :: rest =>
    match a.enter id segment with
    | .error e => (.error e, a)
    | .ok (next, a) => walk a next rest

/-- Writes a value under a key of a scope, if the policy of the scope allows it: a final scope
refuses to overwrite, a closed one to add. -/
def write (a : Arena V) (id : ScopeId) (key : String) (v : V) : Except Fault (Arena V) :=
  match a.scope id with
  | .error e => .error e
  | .ok s =>
    if s.holds key ∧ s.policy.isFinal then .error (.overwriteFinal key (a.describe id))
    else if ¬s.holds key ∧ s.policy.isClosed then .error (.addToClosed key (a.describe id))
    else (a.put id key (.value v)).map (·.2)

/-! ### Walks that read -/

/-- Looks up what segments lead to from a scope. The address is the one that is looked up, for the
wording of faults. -/
def lookUp (a : Arena V) (address : String) (id : ScopeId) :
    List Segment → Except Fault (Found V)
  | [] => (a.scope id).map fun _ => .scope id
  | .key k :: rest =>
    match a.scope id with
    | .error e => .error e
    | .ok s =>
      match s.find? k with
      | some (.scope child) => lookUp a address child rest
      | some (.value v) => .ok (.value v)
      | none => .ok .nothing
  | .index none i :: rest =>
    match a.scope id with
    | .error e => .error e
    | .ok s =>
      match s.appended[i]? with
      | some child => lookUp a address child rest
      | none => .ok .nothing
  | .index (some k) i :: rest =>
    match a.scope id with
    | .error e => .error e
    | .ok s =>
      match s.find? k with
      | some (.value _) => .error (.indexOnValueIn k address)
      | none => .ok .nothing
      | some (.scope list) =>
        match a.scope list with
        | .error e => .error e
        | .ok s =>
          match s.appended[i]? with
          | some child => lookUp a address child rest
          | none => .ok .nothing
  | .anonymous :: _ => .error (.anonymousTarget address)

/-- The scope that a segment leads to from another one. -/
def next? (a : Arena V) (id : ScopeId) : Segment → Option ScopeId
  | .key k => a.scopes[id]?.bind fun s => (s.find? k).bind Entry.scope?
  | .index none i => a.scopes[id]?.bind fun s => s.appended[i]?
  | .index (some k) i =>
    (a.scopes[id]?.bind fun s => (s.find? k).bind Entry.scope?).bind fun list =>
      a.scopes[list]?.bind fun s => s.appended[i]?
  | .anonymous => none

/-- The scope that segments lead to from another one. -/
def peek? (a : Arena V) (id : ScopeId) : List Segment → Option ScopeId
  | [] => some id
  | segment :: rest => (a.next? id segment).bind fun next => peek? a next rest

end Arena

end ScopedConfig
