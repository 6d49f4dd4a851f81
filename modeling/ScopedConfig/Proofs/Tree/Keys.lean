import Mathlib.Data.List.Basic
import ScopedConfig.Proofs.Tree.Basic

/-!
# Values at the ends of keys

In a tree in which no policy refuses anything, a value may be written at the end of any keys. It
then stands there, and so does every value at the end of other keys, unless the keys of one of the
two go on from those of the other.

Key definitions: `Tree.Unrestricted`, `Tree.Stores`, `Tree.Assigned`.
Key theorems: `Tree.Stores.lookUp`, `Tree.Unrestricted.visit_write`.
-/

namespace ScopedConfig.Tree

variable {V : Type}

/-- Nothing that keys lead to refuses a write. -/
inductive Unrestricted : Tree V → Prop
  | mk {t : Tree V} (policy : t.policy = .default)
      (child : ∀ key child, t.find? key = some (.scope child) → Unrestricted child) :
      Unrestricted t

/-- A value stands at the end of keys. -/
inductive Stores (v : V) : List String → Tree V → Prop
  | here {t : Tree V} {key : String} (found : t.find? key = some (.value v)) : Stores v [key] t
  | under {t child : Tree V} {key : String} {path : List String}
      (found : t.find? key = some (.scope child)) (rest : Stores v path child) :
      Stores v (key :: path) t

/-- Neither path goes on from the other one, and they are not equal. -/
def Apart (p q : List String) : Prop :=
  ¬p <+: q ∧ ¬q <+: p

instance (p q : List String) : Decidable (Apart p q) :=
  inferInstanceAs (Decidable (_ ∧ _))

/-- What a write at the end of keys does to a tree. -/
structure Assigned (path : List String) (v : V) (t t' : Tree V) : Prop where
  unrestricted : t'.Unrestricted
  stores : Stores v path t'
  keeps : ∀ {u : V} {other : List String}, Apart other path → Stores u other t → Stores u other t'

variable {t : Tree V}

/-! ### Reading -/

/-- **What stands at the end of keys is looked up there.** -/
theorem Stores.lookUp {v : V} {path : List String} (h : Stores v path t) :
    t.lookUp (path.map .key) = .ok (some (.value v)) := by
  induction h with
  | here found =>
    rw [List.map_singleton, Tree.lookUp]
    simp only [found]
  | under found rest ih =>
    rw [List.map_cons, Tree.lookUp]
    simp only [found, ih]

theorem unrestricted_empty : Unrestricted (empty .default : Tree V) :=
  .mk rfl fun _ _ h => absurd h (by simp [find?, empty, Table.find?])

/-! ### Writing -/

theorem find?_put (t : Tree V) (key other : String) (item : Item V (Tree V)) :
    (t.put key item).find? other = if other = key then some item else t.find? other :=
  Table.find?_insert key other item t.entries

theorem apart_cons {key : String} {p q : List String} :
    Apart (key :: p) (key :: q) ↔ Apart p q := by
  simp only [Apart, List.cons_prefix_cons, true_and]

/-- What the first key holds does not matter to a value at the end of keys that start otherwise. -/
theorem Stores.of_find? {t' : Tree V} {u : V} {key : String} {path : List String}
    (h : Stores u (key :: path) t) (hf : t'.find? key = t.find? key) :
    Stores u (key :: path) t' := by
  cases h with
  | here found => exact .here (hf.trans found)
  | under found rest => exact .under (hf.trans found) rest

theorem Unrestricted.write (h : t.Unrestricted) (key : String) (v : V) :
    ∃ t', t.write key v = (.ok (), t') ∧ Assigned [key] v t t' := by
  obtain ⟨policy, child⟩ := h
  refine ⟨t.put key (.value v), ?_, ?_, ?_, ?_⟩
  · simp [Tree.write, policy, Policy.default]
  · refine .mk policy fun k c hc => ?_
    rw [find?_put] at hc
    split at hc
    · simp at hc
    · exact child k c hc
  · exact .here (by rw [find?_put, if_pos rfl])
  · intro u other hapart hstores
    cases other with
    | nil => cases hstores
    | cons k other =>
      have hne : k ≠ key := by
        rintro rfl
        exact hapart.2 (by simp)
      exact hstores.of_find? (by rw [find?_put, if_neg hne])

theorem Unrestricted.enter_key (h : t.Unrestricted) (key : String) :
    ∃ child t', t.enter (.key key) = .ok (child, t') ∧ child.Unrestricted ∧
      t'.policy = .default ∧ t'.find? key = some (.scope child) ∧
      (∀ other, other ≠ key → t'.find? other = t.find? other) ∧
      ∀ c, t.find? key = some (.scope c) → c = child := by
  obtain ⟨policy, child⟩ := h
  let t' := t.put key (.scope (empty .default))
  have hput : t'.find? key = some (.scope (empty .default)) := by rw [find?_put, if_pos rfl]
  have hother : ∀ other, other ≠ key → t'.find? other = t.find? other := fun other hne => by
    rw [find?_put, if_neg hne]
  have hopen : t.policy.isFinal = false ∧ t.policy.isClosed = false := by
    rw [policy]
    exact ⟨rfl, rfl⟩
  rcases hfound : t.find? key with _ | (v | c)
  · refine ⟨_, t', ?_, unrestricted_empty, policy, hput, hother, fun c hc => by simp at hc⟩
    simp only [enter, hfound, hopen, Bool.false_eq_true, if_false, t']
  · refine ⟨_, t', ?_, unrestricted_empty, policy, hput, hother, fun c hc => by simp at hc⟩
    simp only [enter, hfound, hopen, Bool.false_eq_true, if_false, t']
  · refine ⟨c, t, ?_, child key c hfound, policy, hfound, fun _ _ => rfl, fun d hd => ?_⟩
    · simp only [enter, hfound]
    · exact (Item.scope.inj (Option.some.inj hd)).symm

theorem find?_modifyNext_key (t : Tree V) (f : Tree V → Tree V) (key other : String) :
    (t.modifyNext f (.key key)).find? other =
      if other = key then (t.find? key).map (Item.change f) else t.find? other :=
  Table.find?_modify key other (Item.change f) t.entries

/-- **Writes at the ends of keys do not disturb each other.** In a tree that refuses nothing a value
can be written at the end of any keys. The induction is on the keys in front of the last one: what
is written further on is put back under the first of them, and nothing beside it notices. -/
theorem Unrestricted.visit_write (key : String) (v : V) : ∀ (path : List String) {t : Tree V},
    t.Unrestricted → ∃ t', t.visit (Tree.write key v) (path.map .key) = (.ok (), t') ∧
      Assigned (path ++ [key]) v t t'
  | [], t, h => h.write key v
  | first :: path, t, h => by
    obtain ⟨policy, hchild⟩ := id h
    obtain ⟨child, t₁, henter, hfree, hpolicy, hfirst, hother, hsame⟩ := h.enter_key first
    obtain ⟨child', hvisit, hassigned⟩ := hfree.visit_write key v path
    have hfind : ∀ k, (t₁.modifyNext (fun _ => child') (.key first)).find? k =
        if k = first then some (.scope child') else t.find? k := fun k => by
      rw [find?_modifyNext_key, hfirst]
      split
      · rfl
      · rename_i hne
        exact hother k hne
    refine ⟨t₁.modifyNext (fun _ => child') (.key first), ?_, ?_, ?_, ?_⟩
    · rw [List.map_cons, visit, henter]
      simp only [hvisit]
      rfl
    · refine .mk hpolicy fun k c hc => ?_
      rw [hfind] at hc
      split at hc
      · obtain rfl := Item.scope.inj (Option.some.inj hc)
        exact hassigned.unrestricted
      · exact hchild k c hc
    · exact .under (by rw [hfind, if_pos rfl]) hassigned.stores
    · intro u other hapart hstores
      cases other with
      | nil => cases hstores
      | cons k other =>
        by_cases hk : k = first
        · subst hk
          rw [List.cons_append, apart_cons] at hapart
          cases hstores with
          | here found => exact absurd List.nil_prefix hapart.1
          | under found rest =>
            obtain rfl := hsame _ found
            exact .under (by rw [hfind, if_pos rfl]) (hassigned.keeps hapart rest)
        · exact hstores.of_find? (by rw [hfind, if_neg hk])

end ScopedConfig.Tree
