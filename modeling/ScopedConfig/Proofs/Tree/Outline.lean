import ScopedConfig.Proofs.Tree.Basic
import ScopedConfig.Workspace.Operation

/-!
# Outlines

An outline is a workspace as a reader of the documents thinks of it: one tree, the remembered
segments, and the anonymous tree that is open, if there is one, with the path to where it belongs.
It has no numbers, so nothing can be shared in it and nothing can be lost. An operation acts on the
tree as a whole. To leave the open tree is to append it at the end of its path, and that is all
there is to it: a new sibling of the open tree is no case of its own.

Key definitions: `Outline`, `Outline.pop`, `Outline.visit`, `Outline.apply`, `Outline.trace`.
-/

namespace ScopedConfig

/-- An anonymous tree that is open, and is not in the tree of all yet. -/
structure OpenTree (V : Type) where
  /-- The path to the tree it is to join. -/
  parentPath : List Step
  tree : Tree V

/-- The state of a document that is being read, as one tree. -/
structure Outline (V : Type) where
  root : Tree V
  /-- The segments of the last address, as they were written. -/
  remembered : List String
  opened : Option (OpenTree V)

/-- What an operation answers. -/
inductive Answer (V : Type)
  | done
  | found (what : Option (Item V (Tree V)))
  | policy (policy : Policy)

namespace Outline

variable {V : Type}

/-- An outline of an empty tree that has a policy, and segments to start from. -/
def ofPolicy (policy : Policy) (remembered : List String) : Outline V :=
  ⟨.empty policy, remembered, none⟩

/-- The address that a name stands for. -/
def address (s : Outline V) (name : String) : Except Code Address :=
  (Address.ofName name s.remembered).mapError Fault.code

/-- Remembers the segments of an address. -/
def remember (s : Outline V) (address : Address) : Outline V :=
  { s with remembered := Address.remembered address.text }

/-- Appends the open tree, if there is one, at the end of its path. -/
def pop (s : Outline V) : Outline V :=
  match s.opened with
  | none => s
  | some o => { s with root := s.root.modify (·.adopt o.tree) o.parentPath, opened := none }

/-- The tree that local keys go to: the open one, or the tree of all. -/
def current (s : Outline V) : Tree V :=
  match s.opened with
  | none => s.root
  | some o => o.tree

/-- Puts another tree in the place of the current one. -/
def setCurrent (s : Outline V) (t : Tree V) : Outline V :=
  match s.opened with
  | none => { s with root := t }
  | some o => { s with opened := some { o with tree := t } }

/-- Acts on the tree that segments lead to from the root. -/
def visit (s : Outline V) (act : Tree V → Except Code Unit × Tree V) (segments : List Segment) :
    Except Code Unit × Outline V :=
  let (result, root) := s.root.visit act segments
  (result, { s with root := root })

/-- Makes the trees on the way along segments, and opens an anonymous one at their end. -/
def openAt (s : Outline V) (segments : List Segment) : Except Code Unit × Outline V :=
  match s.visit Tree.ensureOpen segments with
  | (.error c, s) => (.error c, s)
  | (.ok (), s) => (.ok (), { s with opened := some ⟨Address.path segments, .empty .default⟩ })

/-- Makes the tree that a name leads to, or opens an anonymous one in it when the name ends in a
dot. -/
def createNamed (s : Outline V) (name : String) : Except Code Unit × Outline V :=
  match s.address name with
  | .error c => (.error c, s)
  | .ok address =>
    let s := s.pop.remember address
    if address.isAnonymous then s.openAt address.segments.dropLast
    else s.visit Tree.stay address.segments

/-- Assigns a value to a name. -/
def assign (s : Outline V) (name : String) (v : V) : Except Code Unit × Outline V :=
  match ((Address.ofName name s.remembered).bind Address.target).mapError Fault.code with
  | .error c => (.error c, s)
  | .ok (segments, key) => s.pop.visit (Tree.write key v) segments

/-- Assigns a value to a key of the current tree. -/
def assignLocal (s : Outline V) (text : String) (v : V) : Except Code Unit × Outline V :=
  match (Address.localKey text).mapError Fault.code with
  | .error c => (.error c, s)
  | .ok key =>
    let (result, t) := s.current.write key v
    (result, s.setCurrent t)

/-- The segments of a name that has to lead to something; the open tree is left for it. -/
def leaveFor (s : Outline V) (name : String) : Except Code (List Segment) × Outline V :=
  match s.address name with
  | .error c => (.error c, s)
  | .ok address =>
    if address.isAnonymous then (.error .nameAnonymousTarget, s) else (.ok address.segments, s.pop)

/-- What a name leads to. -/
def lookUp (s : Outline V) (name : String) :
    Except Code (Option (Item V (Tree V))) × Outline V :=
  match s.leaveFor name with
  | (.error c, s) => (.error c, s)
  | (.ok segments, s) => (s.root.lookUp segments, s)

/-- The tree that a name leads to, and the path to it. -/
def treeAt (s : Outline V) (name : String) : Except Code (List Step × Tree V) × Outline V :=
  match s.leaveFor name with
  | (.error c, s) => (.error c, s)
  | (.ok segments, s) =>
    match s.root.lookUp segments with
    | .error c => (.error c, s)
    | .ok (some (.scope t)) => (.ok (Address.path segments, t), s)
    | .ok (some (.value _)) => (.error .scopeNotAScope, s)
    | .ok none => (.error .scopeNotFound, s)

/-- The policy of the tree that a name leads to, or of the current one. -/
def policyOf (s : Outline V) (name? : Option String) : Except Code Policy × Outline V :=
  match name? with
  | none => (.ok s.current.policy, s)
  | some name =>
    match s.treeAt name with
    | (.error c, s) => (.error c, s)
    | (.ok (_, t), s) => (.ok t.policy, s)

/-- Moves the policy of the tree that a name leads to, or of the current one. -/
def protect (s : Outline V) (name? : Option String) (move : Policy → Policy) :
    Except Code Unit × Outline V :=
  let moved := fun t : Tree V => t.restrict (move t.policy)
  match name? with
  | none => (.ok (), s.setCurrent (moved s.current))
  | some name =>
    match s.treeAt name with
    | (.error c, s) => (.error c, s)
    | (.ok (path, _), s) => (.ok (), { s with root := s.root.modify moved path })

/-- Does an operation. -/
def apply (s : Outline V) : Operation V → Except Code (Answer V) × Outline V
  | .createNamed name => answer (fun _ => .done) (s.createNamed name)
  | .assign name v => answer (fun _ => .done) (s.assign name v)
  | .assignLocal text v => answer (fun _ => .done) (s.assignLocal text v)
  | .lookUp name => answer .found (s.lookUp name)
  | .finalize name? => answer (fun _ => .done) (s.protect name? .finalized)
  | .close name? => answer (fun _ => .done) (s.protect name? .closed)
  | .policy name? => answer .policy (s.policyOf name?)
  | .pop => (.ok .done, s.pop)
where
  /-- Turns an outcome into an answer. -/
  answer {α : Type} (f : α → Answer V) (r : Except Code α × Outline V) :
      Except Code (Answer V) × Outline V :=
    (r.1.map f, r.2)

/-- The answers and outlines of operations done one after the other. -/
def trace (s : Outline V) : List (Operation V) → List (Except Code (Answer V) × Outline V)
  | [] => []
  | op :: ops => s.apply op :: trace (s.apply op).2 ops

/-! ### Small facts -/

theorem pop_of_none {o : Outline V} (ho : o.opened = none) : o.pop = o := by
  rw [pop, ho]

theorem opened_pop (o : Outline V) : o.pop.opened = none := by
  unfold pop
  cases ho : o.opened with
  | none => exact ho
  | some _ => rfl

theorem remembered_pop (o : Outline V) : o.pop.remembered = o.remembered := by
  unfold pop
  cases o.opened <;> rfl

theorem assign_eq (o : Outline V) {name : String} {segments : List Segment} {key : String}
    (h : (Address.ofName name o.remembered).bind Address.target = .ok (segments, key)) (v : V) :
    o.assign name v = o.pop.visit (Tree.write key v) segments := by
  rw [assign, h]
  rfl

end Outline

end ScopedConfig
