import Mathlib.Logic.Relation
import ScopedConfig.Proofs.Arena.Walking
import ScopedConfig.Workspace.Basic

/-!
# Changes of a workspace

Whatever an operation does to a workspace, it does by six kinds of changes: it remembers segments,
writes a value, creates a scope under a key, tightens a policy, opens an anonymous scope, or appends
the open one to its parent's list. Each kind states what was checked before it happens. While a
scope is open, values and policies go into that scope alone; scopes are created, and other scopes
are written into, only when none is open.

A workspace is sound if its arena is, the flag tells whether a scope is open, and the open scope is
the last one of the arena, is held by nobody, holds no other scope, and is the child of the open
scope that the cursor's path leads to. Every change keeps a workspace sound. What an operation
does is thus followed change by change, and every invariant is shown once for each kind.

Key definitions: `Workspace.Change`, `Workspace.Changes`, `OpenScope.LiveUnder`, `Workspace.Sound`.
Key theorems: `Workspace.Change.sound`, `Workspace.Changes.sound`.
-/

namespace ScopedConfig

variable {V : Type}

/-- What is true of the open scope and the scope it was created in. -/
structure OpenScope.LiveUnder (o : OpenScope) (a : Arena V) (parent : ScopeId) : Prop where
  resolves : a.resolve o.parentPath = .ok parent
  isChild : a.IsChild o.id parent
  isOpen : ∀ p, a.scopes[parent]? = some p → p.policy.isClosed = false
  /-- Nobody holds it yet. -/
  free : ∀ id step, ¬a.Holds id step o.id
  /-- It holds values alone. -/
  bare : ∀ step child, ¬a.Holds o.id step child
  last : o.id + 1 = a.size

namespace Workspace

/-- The arena is sound, and the cursor and the flag agree with it. -/
structure Sound (w : Workspace V) : Prop where
  arena : w.arena.Sound
  flag : w.isUsingArray = w.cursor.isSome
  live : ∀ o, w.cursor = some o → ∃ parent, o.LiveUnder w.arena parent

/-- The scope that may be written into: the open one, or any that a path leads to while none is
open. -/
def Targets (w : Workspace V) (id : ScopeId) : Prop :=
  match w.cursor with
  | none => ∃ path, w.arena.resolve path = .ok id
  | some o => o.id = id

/-- One change of a workspace. -/
inductive Change (w : Workspace V) : Workspace V → Prop
  | remember (segments : List String) : Change w { w with remembered := segments }
  | write {id : ScopeId} {s : Scope V} {key : String} (v : V) (target : w.Targets id)
      (scope : w.arena.scopes[id]? = some s) (allowed : s.Allows key) :
      Change w { w with arena := w.arena.update id (·.put key (.value v)) }
  /-- What stands under the key, if anything does, is a value. -/
  | sprout {id : ScopeId} {s : Scope V} {key : String} (global : w.cursor = none)
      (target : w.Targets id) (scope : w.arena.scopes[id]? = some s) (allowed : s.Allows key)
      (noScope : s.next? (.key key) = none) : Change w { w with arena := w.arena.sprout id key }
  | restrict {id : ScopeId} {s : Scope V} {policy : Policy} (target : w.Targets id)
      (scope : w.arena.scopes[id]? = some s) (stricter : policy.isAtLeast s.policy = true) :
      Change w { w with arena := w.arena.update id (·.restrict policy) }
  | enter {path : List Step} {id : ScopeId} {s : Scope V} (global : w.cursor = none)
      (target : w.arena.resolve path = .ok id) (scope : w.arena.scopes[id]? = some s)
      (isOpen : s.policy.isClosed = false) :
      Change w { w with
        arena := w.arena.extend id, cursor := some ⟨path, w.arena.size⟩, isUsingArray := true }
  | leave {o : OpenScope} {parent : ScopeId} (cursor : w.cursor = some o)
      (child : w.arena.IsChild o.id parent) :
      Change w { w with
        arena := w.arena.update parent (·.adopt o.id), cursor := none, isUsingArray := false }

/-- Changes one after the other. -/
abbrev Changes : Workspace V → Workspace V → Prop :=
  Relation.ReflTransGen Change

end Workspace

/-! ### The open scope -/

namespace OpenScope.LiveUnder

variable {o : OpenScope} {a : Arena V} {parent : ScopeId}

theorem parent_eq (h : o.LiveUnder a parent) : o.parent a = .ok parent := by
  obtain ⟨s, hs, hp⟩ := h.isChild
  rw [OpenScope.parent, h.resolves]
  simp only [Arena.scope_eq hs, hp, if_true]

theorem exists_parent (h : o.LiveUnder a parent) (ha : a.Sound) :
    ∃ p, a.scopes[parent]? = some p :=
  ha.exists_of_resolve h.resolves

theorem not_mem_appended (h : o.LiveUnder a parent) {id : ScopeId} {s : Scope V}
    (hs : a.scopes[id]? = some s) : o.id ∉ s.appended := by
  intro hm
  obtain ⟨i, hi⟩ := Scope.next?_of_mem_appended hm
  exact h.free id (.index i) ⟨s, hs, hi⟩

theorem append_eq (h : o.LiveUnder a parent) (ha : a.Sound) :
    a.append o.id = .ok (true, a.update parent (·.adopt o.id)) := by
  obtain ⟨s, hs, hp⟩ := h.isChild
  obtain ⟨p, hp'⟩ := h.exists_parent ha
  exact Arena.append_eq hs hp hp' (h.not_mem_appended hp')

/-- **What is written into the open scope leaves the cursor as good as it was**, as long as no scope
comes in: nobody holds the open scope, so it is on no path, and it is not its own parent. -/
theorem update (h : o.LiveUnder a parent) (ha : a.Sound) {s : Scope V} {f : Scope V → Scope V}
    (hs : a.scopes[o.id]? = some s) (hp : ∀ s, (f s).parent? = s.parent?)
    (hf : ∀ step, (f s).next? step = s.next? step) : o.LiveUnder (a.update o.id f) parent := by
  have hholds : ∀ id step child, (a.update o.id f).Holds id step child ↔ a.Holds id step child :=
    fun _ _ _ => Arena.holds_update_iff f hs hf
  have hne : o.id ≠ parent := (Nat.ne_of_lt (ha.lt_of_isChild h.isChild)).symm
  refine ⟨?_, (Arena.isChild_update_iff hp).mpr h.isChild, ?_, ?_, ?_, ?_⟩
  · exact Arena.follow_mono (fun id step child hc => (hholds id step child).mpr hc) h.resolves
  · intro p hp'
    rw [Arena.getElem?_update_of_ne f hne] at hp'
    exact h.isOpen p hp'
  · intro id step hc
    exact h.free id step ((hholds id step o.id).mp hc)
  · intro step child hc
    exact h.bare step child ((hholds o.id step child).mp hc)
  · rw [Arena.size_update]
    exact h.last

theorem of_extend {path : List Step} {p : Scope V} (ha : a.Sound)
    (hpath : a.resolve path = .ok parent) (hp : a.scopes[parent]? = some p)
    (hopen : p.policy.isClosed = false) :
    LiveUnder ⟨path, a.size⟩ (a.extend parent) parent := by
  refine ⟨?_, Arena.isChild_extend_self a parent, ?_, ?_, ?_, (Arena.size_extend a parent).symm⟩
  · exact Arena.follow_mono (fun id step child hc => Arena.holds_extend_iff.mpr hc) hpath
  · intro p' hp'
    rw [Arena.getElem?_extend_of_some parent hp] at hp'
    obtain rfl := Option.some.inj hp'
    exact hopen
  · intro id step hc
    obtain ⟨s, hs, -⟩ := ha.isChild_of_holds (Arena.holds_extend_iff.mp hc)
    exact absurd (Arena.lt_size hs) (Nat.lt_irrefl a.size)
  · intro step child hc
    obtain ⟨s, hs, -⟩ := Arena.holds_extend_iff.mp hc
    exact absurd (Arena.lt_size hs) (Nat.lt_irrefl a.size)

end OpenScope.LiveUnder

/-! ### Soundness -/

namespace Workspace

theorem sound_ofPolicy (policy : Policy) (remembered : List String) :
    (ofPolicy policy remembered : Workspace V).Sound :=
  ⟨Arena.sound_ofPolicy policy, rfl, fun o ho => absurd ho (by simp [ofPolicy])⟩

namespace Sound

variable {w w' : Workspace V}

/-- The open scope stands under the scope it was created in, and under no other one. -/
theorem liveUnder (h : w.Sound) {o : OpenScope} {parent : ScopeId} (ho : w.cursor = some o)
    (hchild : w.arena.IsChild o.id parent) : o.LiveUnder w.arena parent := by
  obtain ⟨parent', hl⟩ := h.live o ho
  obtain rfl := hchild.unique hl.isChild
  exact hl

/-- A write into a target that brings in no scope keeps the open scope live. -/
theorem live_update (h : w.Sound) {id : ScopeId} {s : Scope V} (f : Scope V → Scope V)
    (target : w.Targets id) (hs : w.arena.scopes[id]? = some s)
    (hp : ∀ s, (f s).parent? = s.parent?)
    (hf : (∀ step, s.next? step = none) → ∀ step, (f s).next? step = none) {o : OpenScope}
    (ho : w.cursor = some o) : ∃ parent, o.LiveUnder (w.arena.update id f) parent := by
  obtain ⟨parent, hl⟩ := h.live o ho
  obtain rfl : o.id = id := by
    rw [Targets, ho] at target
    exact target
  have hbare : ∀ step, s.next? step = none := fun step => by
    cases hn : s.next? step with
    | none => rfl
    | some child => exact absurd ⟨s, hs, hn⟩ (hl.bare step child)
  exact ⟨parent, hl.update h.arena hs hp fun step => by rw [hf hbare, hbare]⟩

end Sound

/-- **A change keeps a workspace sound.** -/
theorem Change.sound {w w' : Workspace V} (h : w.Sound) (c : Change w w') : w'.Sound := by
  cases c with
  | remember segments => exact ⟨h.arena, h.flag, h.live⟩
  | @write id s key v target scope allowed =>
    refine ⟨h.arena.putValue scope key v, h.flag, fun o ho => ?_⟩
    refine h.live_update (·.put key (.value v)) target scope (fun _ => rfl) (fun hn step => ?_) ho
    rw [Scope.next?_put, hn]
    exact ite_self none
  | @sprout id s key global target scope allowed noScope =>
    refine ⟨h.arena.sprout scope key, h.flag, fun o ho => ?_⟩
    rw [show w.cursor = some o from ho] at global
    exact absurd global (by simp)
  | @restrict id s policy target scope stricter =>
    refine ⟨h.arena.restrict scope policy, h.flag, fun o ho => ?_⟩
    refine h.live_update (·.restrict policy) target scope (fun _ => rfl) (fun hn step => ?_) ho
    rw [Scope.next?_restrict, hn]
  | @enter path id s global target scope isOpen =>
    refine ⟨h.arena.extend scope, rfl, fun o ho => ?_⟩
    obtain rfl := Option.some.inj ho
    exact ⟨id, .of_extend h.arena target scope isOpen⟩
  | @leave o parent cursor child =>
    have hl : o.LiveUnder w.arena parent := h.liveUnder cursor child
    obtain ⟨p, hp⟩ := hl.exists_parent h.arena
    refine ⟨h.arena.adopt hp child hl.last fun step hn => ?_, rfl, fun o ho => absurd ho (by simp)⟩
    exact hl.free parent step ⟨p, hp, hn⟩

theorem Changes.sound {w w' : Workspace V} (h : w.Sound) (c : Changes w w') : w'.Sound := by
  induction c with
  | refl => exact h
  | tail _ c ih => exact c.sound ih

end Workspace

end ScopedConfig
