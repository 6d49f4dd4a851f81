import ScopedConfig.Address.Segment
import ScopedConfig.Policy
import ScopedConfig.Proofs.Table

/-!
# Nested trees

A tree is a scope with all that is in it, and nothing in it has a number: a policy, what its keys
hold, and the trees that were appended. A tree is rewritten along a path, and what stands beside the
path is not noticed. A visit follows segments as a walk that writes does: it makes empty trees where
keys lead nowhere, as far as the policies on the way allow, and acts on the tree at the end; what
was made on the way stays, whatever the end of it.

Key definitions: `Item`, `Tree`, `Tree.modify`, `Tree.enter`, `Tree.visit`, `Tree.write`,
`Tree.lookUp`.
Key theorems: `Tree.modifyNext_modifyNext`, `Tree.modify_modify`.
-/

namespace ScopedConfig

/-- What a key of a tree holds. -/
inductive Item (V T : Type)
  | value (v : V)
  | scope (tree : T)

/-- Changes a tree that is held; a value stays. -/
def Item.change {V T : Type} (f : T → T) : Item V T → Item V T
  | value v => value v
  | scope t => scope (f t)

/-- A scope with all that is in it. -/
structure Tree (V : Type) where
  policy : Policy
  /-- A `Table`, written out so that the type may stand in it. -/
  entries : List (String × Item V (Tree V))
  /-- The anonymous scopes, in the order they were appended. -/
  appended : List (Tree V)

namespace Tree

variable {V : Type}

/-- A tree with nothing in it. -/
def empty (policy : Policy) : Tree V :=
  ⟨policy, [], []⟩

/-- What a key holds. -/
def find? (t : Tree V) (key : String) : Option (Item V (Tree V)) :=
  Table.find? key t.entries

/-- The key holds something. -/
def holds (t : Tree V) (key : String) : Bool :=
  (t.find? key).isSome

/-! ### Rewriting -/

/-- Puts something under a key. -/
def put (t : Tree V) (key : String) (item : Item V (Tree V)) : Tree V :=
  { t with entries := Table.insert key item t.entries }

/-- Appends a tree. -/
def adopt (t child : Tree V) : Tree V :=
  { t with appended := t.appended ++ [child] }

/-- Gives the tree a policy. -/
def restrict (t : Tree V) (policy : Policy) : Tree V :=
  { t with policy := policy }

/-- Changes what a step leads to. -/
def modifyNext (f : Tree V → Tree V) (t : Tree V) : Step → Tree V
  | .key k => { t with entries := Table.modify k (Item.change f) t.entries }
  | .index i => { t with appended := t.appended.modify i f }

/-- Changes what a path leads to. -/
def modify (f : Tree V → Tree V) : List Step → Tree V → Tree V
  | [], t => f t
  | step :: path, t => t.modifyNext (modify f path) step

/-! ### Operations -/

/-- The trees that were appended to the one under a key, which must exist. -/
def list (t : Tree V) (key : String) : Except Code (List (Tree V)) :=
  match t.find? key with
  | some (.scope child) => .ok child.appended
  | some (.value _) => .error .scopeNotAScope
  | none => .error .scopeIndexOutOfRange

/-- Goes on by a segment: the tree there, and this tree with it, made if need be. -/
def enter (t : Tree V) : Segment → Except Code (Tree V × Tree V)
  | .key k =>
    match t.find? k with
    | some (.scope child) => .ok (child, t)
    | some (.value _) =>
      if t.policy.isFinal then .error .scopeFinalOverride
      else .ok (empty .default, t.put k (.scope (empty .default)))
    | none =>
      if t.policy.isClosed then .error .scopeClosedAdd
      else .ok (empty .default, t.put k (.scope (empty .default)))
  | .index none i =>
    match t.appended[i]? with
    | some child => .ok (child, t)
    | none => .error .scopeIndexOutOfRange
  | .index (some k) i =>
    match t.list k with
    | .error c => .error c
    | .ok trees =>
      match trees[i]? with
      | some child => .ok (child, t)
      | none => .error .scopeIndexOutOfRange
  | .anonymous => .error .nameAnonymousTarget

/-- Acts on the tree that segments lead to. The trees on the way are made if need be, and stay. -/
def visit (act : Tree V → Except Code Unit × Tree V) :
    List Segment → Tree V → Except Code Unit × Tree V
  | [], t => act t
  | segment :: rest, t =>
    match t.enter segment with
    | .error c => (.error c, t)
    | .ok (child, t) =>
      let (result, child) := visit act rest child
      (result, modify (fun _ => child) segment.steps t)

/-- Leaves a tree as it is. -/
def stay (t : Tree V) : Except Code Unit × Tree V :=
  (.ok (), t)

/-- Refuses a tree that is closed. -/
def ensureOpen (t : Tree V) : Except Code Unit × Tree V :=
  (if t.policy.isClosed then .error .scopeClosedAdd else .ok (), t)

/-- Writes a value under a key, if the policy allows it. -/
def write (key : String) (v : V) (t : Tree V) : Except Code Unit × Tree V :=
  if t.holds key ∧ t.policy.isFinal then (.error .scopeFinalOverride, t)
  else if ¬t.holds key ∧ t.policy.isClosed then (.error .scopeClosedAdd, t)
  else (.ok (), t.put key (.value v))

/-- What segments lead to, if anything; a value ends the way. -/
def lookUp : List Segment → Tree V → Except Code (Option (Item V (Tree V)))
  | [], t => .ok (some (.scope t))
  | .key k :: rest, t =>
    match t.find? k with
    | some (.scope child) => lookUp rest child
    | some (.value v) => .ok (some (.value v))
    | none => .ok none
  | .index none i :: rest, t =>
    match t.appended[i]? with
    | some child => lookUp rest child
    | none => .ok none
  | .index (some k) i :: rest, t =>
    match t.find? k with
    | some (.value _) => .error .scopeNotAScope
    | none => .ok none
    | some (.scope list) =>
      match list.appended[i]? with
      | some child => lookUp rest child
      | none => .ok none
  | .anonymous :: _, _ => .error .nameAnonymousTarget

/-! ### Rewriting along a path -/

theorem change_change (f g : Tree V → Tree V) (item : Item V (Tree V)) :
    (item.change f).change g = item.change fun t => g (f t) := by
  cases item <;> rfl

theorem modifyNext_modifyNext (f g : Tree V → Tree V) (t : Tree V) (step : Step) :
    (t.modifyNext f step).modifyNext g step = t.modifyNext (fun t => g (f t)) step := by
  cases step with
  | key k => simp only [modifyNext, Table.modify_modify, change_change]
  | index i => simp only [modifyNext, List.modify_modify_eq, Function.comp_def]

/-- **A change further down a path goes over a change on the way.** -/
theorem modify_modify (f g : Tree V → Tree V) (path' : List Step) :
    ∀ (path : List Step) (t : Tree V),
      modify g (path ++ path') (modify f path t) = modify (fun t => modify g path' (f t)) path t
  | [], _ => rfl
  | step :: path, t => by
    show (t.modifyNext (modify f path) step).modifyNext (modify g (path ++ path')) step =
      t.modifyNext (modify _ path) step
    rw [modifyNext_modifyNext]
    congr 1
    exact funext (modify_modify f g path' path)

end Tree

end ScopedConfig
