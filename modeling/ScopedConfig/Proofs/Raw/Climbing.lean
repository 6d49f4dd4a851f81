import ScopedConfig.Proofs.Raw.Atomic

/-!
# Climbs in raw arenas

A climb goes up by parent links, and searches each parent for the entry or the list that holds the
scope it came from. What it finds in there can be anything in a raw arena: entries may lead in
circles, to scopes of other parents or to none. The climb goes on to the parent all the same, never
to what an entry links, and a parent has a smaller number than its scope after every run of calls.
So the numbers fall from round to round, and a climb that nobody counts the rounds of ends by
itself, with the description that is given of the scope.

Key definitions: `Arena.Climbs`, `Arena.Grounded`.
Key theorems: `Arena.Climbs.unique`, `Arena.Climbs.climb_eq`, `Arena.Linked.exists_climbs`,
`Arena.Linked.falling`, `Raw.run_grounded`.
-/

namespace ScopedConfig

variable {V : Type}

namespace Arena

/-- A climb without a bound on its rounds. From a scope, in front of a path from it, it visits
scopes one after the other, one in each round, and ends at the root with a path, or at a detached
scope with none. -/
inductive Climbs (a : Arena V) : ScopeId → List Step → List ScopeId → Option (List Step) → Prop
  /-- No scope has the number. -/
  | unknown {id : ScopeId} {behind : List Step} (hs : a.scopes[id]? = none) :
      Climbs a id behind [id] none
  /-- The scope has no parent. -/
  | root {id : ScopeId} {behind : List Step} {s : Scope V} (hs : a.scopes[id]? = some s)
      (hparent : s.parent? = none) : Climbs a id behind [id] (some behind)
  /-- The parent does not exist, or does not hold the scope. -/
  | lost {id parent : ScopeId} {behind : List Step} {s : Scope V} (hs : a.scopes[id]? = some s)
      (hparent : s.parent? = some parent)
      (hstep : ∀ p, a.scopes[parent]? = some p → p.stepTo? id = none) : Climbs a id behind [id] none
  /-- The parent holds the scope, and the climb goes on there. -/
  | up {id parent : ScopeId} {behind : List Step} {s p : Scope V} {step : Step}
      {visited : List ScopeId} {found : Option (List Step)} (hs : a.scopes[id]? = some s)
      (hparent : s.parent? = some parent) (hp : a.scopes[parent]? = some p)
      (hstep : p.stepTo? id = some step) (above : Climbs a parent (step :: behind) visited found) :
      Climbs a id behind (id :: visited) found

variable {a : Arena V} {id : ScopeId} {behind : List Step} {visited visited' : List ScopeId}
  {found found' : Option (List Step)}

namespace Climbs

/-- **There is one way to climb.** -/
theorem unique (h : a.Climbs id behind visited found) (h' : a.Climbs id behind visited' found') :
    visited' = visited ∧ found' = found := by
  induction h generalizing visited' found' with
  | unknown hs => cases h' <;> simp_all
  | root hs hparent => cases h' <;> simp_all
  | lost hs hparent hstep => cases h' <;> simp_all
  | up hs hparent hp hstep above ih =>
    cases h' with
    | unknown hs' => simp_all
    | root hs' hparent' => simp_all
    | lost hs' hparent' hstep' => simp_all
    | up hs' hparent' hp' hstep' above' =>
      obtain rfl := Option.some.inj (hs.symm.trans hs')
      obtain rfl := Option.some.inj (hparent.symm.trans hparent')
      obtain rfl := Option.some.inj (hp.symm.trans hp')
      obtain rfl := Option.some.inj (hstep.symm.trans hstep')
      obtain ⟨rfl, rfl⟩ := ih above'
      exact ⟨rfl, rfl⟩

/-- **Counted rounds find the same**, if there are as many of them as scopes to visit. -/
theorem climb_eq (h : a.Climbs id behind visited found) {rounds : Nat}
    (hrounds : visited.length ≤ rounds) :
    a.climb rounds id behind = found.elim .detached .root := by
  induction h generalizing rounds with
  | unknown hs =>
    obtain ⟨rounds, rfl⟩ := Nat.exists_eq_add_of_le' hrounds
    simp only [List.length_singleton, climb, hs, Option.elim]
  | root hs hparent =>
    obtain ⟨rounds, rfl⟩ := Nat.exists_eq_add_of_le' hrounds
    simp only [List.length_singleton, climb, hs, hparent, Option.elim]
  | @lost id parent behind s hs hparent hstep =>
    obtain ⟨rounds, rfl⟩ := Nat.exists_eq_add_of_le' hrounds
    have hnone : a.scopes[parent]?.bind (·.stepTo? id) = none := Option.bind_eq_none_iff.mpr hstep
    simp only [List.length_singleton, climb, hs, hparent, hnone, Option.elim]
  | up hs hparent hp hstep above ih =>
    obtain ⟨rounds, rfl⟩ := Nat.exists_eq_add_of_le' hrounds
    rw [List.length_cons, ← Nat.add_assoc]
    simp only [climb, hs, hparent, hp, Option.bind_some, hstep]
    exact ih (by omega)

theorem describe_eq (h : a.Climbs id [] visited found) (hrounds : visited.length ≤ id + 1) :
    a.describe id = found.elim "<detached>" Step.render := by
  rw [describe, h.climb_eq hrounds]
  cases found <;> rfl

end Climbs

namespace Linked

/-- **Every climb ends.** The number of the parent is smaller, so the induction is on the number. -/
theorem exists_climbs (h : a.Linked) (id : ScopeId) (behind : List Step) :
    ∃ visited found, a.Climbs id behind visited found := by
  induction id using Nat.strongRecOn generalizing behind with
  | ind id ih =>
    cases hs : a.scopes[id]? with
    | none => exact ⟨_, _, .unknown hs⟩
    | some s =>
      cases hparent : s.parent? with
      | none => exact ⟨_, _, .root hs hparent⟩
      | some parent =>
        have hlt : parent < id := (h.scope id s hs).parent_lt parent hparent
        obtain ⟨p, hp⟩ := h.exists_parent ⟨s, hs, hparent⟩
        cases hstep : p.stepTo? id with
        | none =>
          refine ⟨_, _, .lost hs hparent fun p' hp' => ?_⟩
          rwa [← Option.some.inj (hp.symm.trans hp')]
        | some step =>
          obtain ⟨visited, found, habove⟩ := ih parent hlt (step :: behind)
          exact ⟨_, _, .up hs hparent hp hstep habove⟩

theorem le_of_climbs (h : a.Linked) (hc : a.Climbs id behind visited found) :
    ∀ v ∈ visited, v ≤ id := by
  induction hc with
  | unknown hs => exact List.forall_mem_singleton.mpr (Nat.le_refl _)
  | root hs hparent => exact List.forall_mem_singleton.mpr (Nat.le_refl _)
  | lost hs hparent hstep => exact List.forall_mem_singleton.mpr (Nat.le_refl _)
  | up hs hparent hp hstep above ih =>
    have hlt := (h.scope _ _ hs).parent_lt _ hparent
    refine List.forall_mem_cons.mpr ⟨Nat.le_refl _, fun v hv => ?_⟩
    exact Nat.le_trans (ih v hv) (Nat.le_of_lt hlt)

/-- **The numbers fall from round to round.** -/
theorem falling (h : a.Linked) (hc : a.Climbs id behind visited found) :
    visited.Pairwise (· > ·) := by
  induction hc with
  | unknown hs => exact List.pairwise_singleton _ _
  | root hs hparent => exact List.pairwise_singleton _ _
  | lost hs hparent hstep => exact List.pairwise_singleton _ _
  | up hs hparent hp hstep above ih =>
    have hlt := (h.scope _ _ hs).parent_lt _ hparent
    refine List.pairwise_cons.mpr ⟨fun v hv => ?_, ih⟩
    exact Nat.lt_of_le_of_lt (h.le_of_climbs above v hv) hlt

/-- **A climb has no more rounds than there are numbers up to the first one.** -/
theorem length_le (h : a.Linked) (hc : a.Climbs id behind visited found) :
    visited.length ≤ id + 1 := by
  induction hc with
  | unknown hs => simp
  | root hs hparent => simp
  | lost hs hparent hstep => simp
  | up hs hparent hp hstep above ih =>
    have hlt := (h.scope _ _ hs).parent_lt _ hparent
    rw [List.length_cons]
    exact Nat.succ_le_succ (Nat.le_trans ih hlt)

end Linked

end Arena

/-- Every scope knows its place and its parent, and every climb ends. -/
structure Arena.Grounded (a : Arena V) : Prop where
  linked : a.Linked
  /-- The root is the only scope without a parent, and a parent exists and is older. -/
  parent : ∀ (id : ScopeId) (s : Scope V), a.scopes[id]? = some s → id ≠ .root →
    ∃ parent p, s.parent? = some parent ∧ parent < id ∧ a.scopes[parent]? = some p
  /-- From any number, of a scope or not, there is one climb. Its numbers fall, its rounds are
  bounded by the first number, and it finds what the scope is described by. -/
  climb : ∀ id : ScopeId, ∃ visited found,
    (∀ visited' found', a.Climbs id [] visited' found' ↔ visited' = visited ∧ found' = found) ∧
      visited.Pairwise (· > ·) ∧ visited.length ≤ id + 1 ∧
        a.describe id = found.elim "<detached>" Step.render

/-- **Raw arenas stay sound, and every climb in them ends.** This holds after every run of calls,
failed ones and restored copies included, whatever the entries link. A scope has the number of its
place; every scope but the root has a parent that exists and has a smaller number; and a list holds
each scope once, and only scopes whose parent is its owner. So a description is found in as many
rounds as there are numbers up to the scope's own, and each round visits a smaller one. -/
theorem Raw.run_grounded (policy : Policy) (calls : List (Call V)) :
    ((ofPolicy policy).run calls).arena.Grounded := by
  have h := (linked_run (linked_ofPolicy policy) calls).arena
  refine ⟨h, fun id s hs hne => ?_, fun id => ?_⟩
  · have hat := h.scope id s hs
    obtain ⟨parent, hparent⟩ : ∃ parent, s.parent? = some parent :=
      Option.ne_none_iff_exists'.mp fun hnone => hne (hat.parent_none_iff.mp hnone)
    obtain ⟨p, hp⟩ := h.exists_parent ⟨s, hs, hparent⟩
    exact ⟨parent, p, hparent, hat.parent_lt parent hparent, hp⟩
  · obtain ⟨visited, found, hclimb⟩ := h.exists_climbs id []
    have hrounds : visited.length ≤ id + 1 := h.length_le hclimb
    refine ⟨visited, found, fun visited' found' => ⟨hclimb.unique, ?_⟩, h.falling hclimb, hrounds,
      hclimb.describe_eq hrounds⟩
    rintro ⟨rfl, rfl⟩
    exact hclimb

end ScopedConfig
