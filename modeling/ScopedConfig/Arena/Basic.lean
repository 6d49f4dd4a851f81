import ScopedConfig.Arena.Table
import ScopedConfig.Fault
import ScopedConfig.Policy

/-!
# Arenas of scopes

All scopes of a document live in one arena and know each other by number. The root has number zero,
numbers are given in the order of creation and never given again, and a scope that nothing holds
any more stays where it is. Besides its entries a scope has a policy and the list of the anonymous
scopes appended to it; neither can be taken for an entry. A parent link is given at creation and
never changes; whether the parent holds the scope is another matter.

The operations here check nothing but that the scopes they touch exist. What the policies forbid is
decided where a write begins.

Key definitions: `Entry`, `Scope`, `Arena`, `Arena.addChild`, `Arena.put`, `Arena.append`.
Key theorems: `Arena.getElem?_update`.
-/

namespace ScopedConfig

/-- The number of a scope in its arena. -/
abbrev ScopeId := Nat

/-- The number of the root scope. -/
def ScopeId.root : ScopeId := 0

/-- What a key of a scope holds. -/
inductive Entry (V : Type)
  | value (v : V)
  | scope (id : ScopeId)

namespace Entry

variable {V : Type}

/-- The scope that an entry holds. -/
def scope? : Entry V → Option ScopeId
  | value _ => none
  | scope id => some id

/-- The value that an entry holds. -/
def value? : Entry V → Option V
  | value v => some v
  | scope _ => none

end Entry

/-- One level of names. -/
structure Scope (V : Type) where
  id : ScopeId
  /-- The scope it was created in; the root has none. -/
  parent? : Option ScopeId
  policy : Policy
  entries : Table (Entry V)
  /-- The anonymous scopes, in the order they were appended. -/
  appended : List ScopeId

namespace Scope

variable {V : Type}

/-- A scope that holds nothing and refuses nothing. -/
def empty (id : ScopeId) (parent? : Option ScopeId) (policy : Policy) : Scope V :=
  ⟨id, parent?, policy, [], []⟩

/-- What a key holds. -/
def find? (s : Scope V) (key : String) : Option (Entry V) :=
  s.entries.find? key

/-- The key holds something. -/
def holds (s : Scope V) (key : String) : Bool :=
  (s.find? key).isSome

/-- The scope has no parent. -/
def isRoot (s : Scope V) : Bool :=
  s.parent?.isNone

/-- The number of entries. -/
def size (s : Scope V) : Nat :=
  s.entries.length

end Scope

/-- The scopes of a document, in the order of their creation. -/
structure Arena (V : Type) where
  scopes : Array (Scope V)

namespace Arena

variable {V : Type}

/-- The arena of one root scope with a policy. -/
def ofPolicy (policy : Policy) : Arena V :=
  ⟨#[.empty .root none policy]⟩

/-- The number of scopes ever created. -/
def size (a : Arena V) : Nat :=
  a.scopes.size

/-- The scope with a number. -/
def scope (a : Arena V) (id : ScopeId) : Except Fault (Scope V) :=
  match a.scopes[id]? with
  | some s => .ok s
  | none => .error (.unknownScope id)

/-- Changes the scope with a number. -/
def update (a : Arena V) (id : ScopeId) (f : Scope V → Scope V) : Arena V :=
  ⟨a.scopes.modify id f⟩

/-- Creates an empty scope with the default policy. No scope holds it yet. -/
def addChild (a : Arena V) (parent : ScopeId) : Except Fault (ScopeId × Arena V) :=
  (a.scope parent).map fun _ =>
    (a.size, ⟨a.scopes.push (.empty a.size (some parent) .default)⟩)

/-- Gives a scope a policy. -/
def setPolicy (a : Arena V) (id : ScopeId) (policy : Policy) : Except Fault (Arena V) :=
  (a.scope id).map fun _ => a.update id ({ · with policy := policy })

/-- Writes an entry of a scope, and gives what its key held before. -/
def put (a : Arena V) (id : ScopeId) (key : String) (entry : Entry V) :
    Except Fault (Option (Entry V) × Arena V) :=
  (a.scope id).map fun s =>
    (s.find? key, a.update id fun s => { s with entries := s.entries.insert key entry })

/-- Appends a scope to its parent's list, where it joins at the end unless it is there already.
The flag says whether it joined. -/
def append (a : Arena V) (child : ScopeId) : Except Fault (Bool × Arena V) :=
  match a.scope child with
  | .error e => .error e
  | .ok s =>
    match s.parent? with
    | none => .error .rootAppended
    | some parent =>
      (a.scope parent).map fun p =>
        if p.appended.contains child then (false, a)
        else (true, a.update parent fun p => { p with appended := p.appended ++ [child] })

/-! ### Small facts -/

theorem scope_eq_ok_iff {a : Arena V} {id : ScopeId} {s : Scope V} :
    a.scope id = .ok s ↔ a.scopes[id]? = some s := by
  unfold scope
  split <;> simp_all

/-- **A scope that is changed is the only one that is.** -/
theorem getElem?_update (a : Arena V) (id other : ScopeId) (f : Scope V → Scope V) :
    (a.update id f).scopes[other]? =
      if id = other then a.scopes[other]?.map f else a.scopes[other]? := by
  simp only [update, Array.getElem?_modify]

theorem size_update (a : Arena V) (id : ScopeId) (f : Scope V → Scope V) :
    (a.update id f).size = a.size := by
  simp [update, size]

end Arena

end ScopedConfig
