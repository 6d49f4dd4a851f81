import Mathlib.Data.List.Nodup
import ScopedConfig.Proofs.Arena.Writing

/-!
# Links that every arena keeps

Entries may link any number at all, and paths may lead in circles or nowhere. Three things hold of
an arena none the less, because no call gives them up: a scope has the number of its place, every
scope but the root was created in one with a smaller number, and a list of appended scopes holds
each scope once, and only scopes created in the scope that the list belongs to. Therefore the parent
of a scope always exists.

Key definitions: `Scope.join`, `Arena.Linked`.
Key theorems: `Arena.append_eq_join`, `Arena.Linked.exists_parent`, `Arena.Linked.update`,
`Arena.Linked.join`, `Arena.Linked.extend`.
-/

namespace ScopedConfig

variable {V : Type}

/-- Appends a scope that is not in the list yet. -/
def Scope.join (s : Scope V) (child : ScopeId) : Scope V :=
  { s with appended := if child ∈ s.appended then s.appended else s.appended ++ [child] }

namespace Arena

/-- What a scope with a number satisfies, whatever its entries are. -/
structure LinkedAt (a : Arena V) (id : ScopeId) (s : Scope V) : Prop where
  id_eq : s.id = id
  parent_none_iff : s.parent? = none ↔ id = .root
  parent_lt : ∀ parent, s.parent? = some parent → parent < id
  nodup : s.appended.Nodup
  isChild : ∀ child ∈ s.appended, a.IsChild child id

/-- There is a root, and every scope satisfies what it has to. -/
structure Linked (a : Arena V) : Prop where
  root : ∃ s, a.scopes[ScopeId.root]? = some s
  scope : ∀ id s, a.scopes[id]? = some s → a.LinkedAt id s

/-! ### The list of a parent -/

theorem update_congr {a : Arena V} {id : ScopeId} {s : Scope V} {f g : Scope V → Scope V}
    (hs : a.scopes[id]? = some s) (hfg : f s = g s) : a.update id f = a.update id g := by
  have hscopes : (a.update id f).scopes = (a.update id g).scopes := by
    refine Array.ext_getElem? fun other => ?_
    by_cases ho : id = other
    · subst ho
      rw [getElem?_update_self f hs, getElem?_update_self g hs, hfg]
    · rw [getElem?_update_of_ne f ho, getElem?_update_of_ne g ho]
  exact congrArg Arena.mk hscopes

theorem update_id (a : Arena V) (id : ScopeId) : a.update id (fun s => s) = a := by
  have hscopes : (a.update id fun s => s).scopes = a.scopes := by
    refine Array.ext_getElem? fun other => ?_
    by_cases ho : id = other
    · rw [getElem?_update, if_pos ho, Option.map_id']
    · rw [getElem?_update, if_neg ho]
  exact congrArg Arena.mk hscopes

/-- **A scope joins the list of its parent**, at the end and once. -/
theorem append_eq_join {a : Arena V} {child parent : ScopeId} {p : Scope V}
    (hchild : a.IsChild child parent) (hp : a.scopes[parent]? = some p) :
    a.append child = .ok (!decide (child ∈ p.appended), a.update parent (·.join child)) := by
  obtain ⟨s, hs, hparent⟩ := hchild
  simp only [append, scope_eq hs, hparent, scope_eq hp, Except.map, List.contains_eq_mem]
  by_cases hc : child ∈ p.appended
  · have hjoin : p = p.join child := by simp only [Scope.join, hc, if_true]
    have hsame := update_congr (f := fun p => p) (g := (·.join child)) hp hjoin
    rw [if_pos (by simpa using hc), ← hsame, update_id]
    simp [hc]
  · have hjoin : p.adopt child = p.join child := by
      simp only [Scope.adopt, Scope.join, hc, if_false]
    have hsame := update_congr (f := (·.adopt child)) (g := (·.join child)) hp hjoin
    rw [if_neg (by simpa using hc), ← hsame]
    simp [hc, Scope.adopt]

theorem exists_of_append {a b : Arena V} {child : ScopeId} {joined : Bool}
    (h : a.append child = .ok (joined, b)) :
    ∃ parent p, a.IsChild child parent ∧ a.scopes[parent]? = some p := by
  unfold append at h
  cases hs : a.scope child with
  | error e => simp [hs] at h
  | ok s =>
    simp only [hs] at h
    cases hparent : s.parent? with
    | none => simp [hparent] at h
    | some parent =>
      simp only [hparent] at h
      cases hp : a.scope parent with
      | error e => simp [hp, Except.map] at h
      | ok p => exact ⟨parent, p, ⟨s, scope_eq_ok_iff.mp hs, hparent⟩, scope_eq_ok_iff.mp hp⟩

/-! ### What keeps the links -/

theorem LinkedAt.mono {a b : Arena V} {id : ScopeId} {s : Scope V} (h : a.LinkedAt id s)
    (hc : ∀ child parent, a.IsChild child parent → b.IsChild child parent) : b.LinkedAt id s :=
  { h with isChild := fun child hm => hc child id (h.isChild child hm) }

theorem linkedAt_empty {a : Arena V} {id : ScopeId} {parent? : Option ScopeId} (policy : Policy)
    (hnone : parent? = none ↔ id = .root) (hlt : ∀ parent, parent? = some parent → parent < id) :
    a.LinkedAt id (.empty id parent? policy) :=
  ⟨rfl, hnone, hlt, List.nodup_nil, fun _ hm => absurd hm List.not_mem_nil⟩

theorem linked_ofPolicy (policy : Policy) : (ofPolicy policy : Arena V).Linked := by
  refine ⟨⟨_, rfl⟩, fun id s hs => ?_⟩
  obtain ⟨hlt, rfl⟩ := Array.getElem?_eq_some_iff.mp hs
  obtain rfl : id = .root := Nat.lt_one_iff.mp hlt
  exact linkedAt_empty policy ⟨fun _ => rfl, fun _ => rfl⟩ fun p hp => absurd hp (by simp)

namespace Linked

variable {a : Arena V}

theorem exists_parent (h : a.Linked) {child parent : ScopeId} (hc : a.IsChild child parent) :
    ∃ p, a.scopes[parent]? = some p := by
  obtain ⟨s, hs, hp⟩ := hc
  have hlt : parent < child := (h.scope child s hs).parent_lt parent hp
  have hsize : child < a.size := lt_size hs
  exact ⟨_, Array.getElem?_eq_getElem (Nat.lt_trans hlt hsize)⟩

/-- **A rewrite of one scope keeps the links** if it keeps number and parent and if what is in the
list afterwards may be there. -/
theorem update (h : a.Linked) {id : ScopeId} {f : Scope V → Scope V}
    (hid : ∀ s, (f s).id = s.id) (hparent : ∀ s, (f s).parent? = s.parent?)
    (hlist : ∀ s, a.scopes[id]? = some s → (f s).appended.Nodup ∧
      ∀ child ∈ (f s).appended, a.IsChild child id) : (a.update id f).Linked := by
  have hc : ∀ child parent, a.IsChild child parent → (a.update id f).IsChild child parent :=
    fun _ _ hc => (isChild_update_iff hparent).mpr hc
  refine ⟨?_, fun other t ht => ?_⟩
  · obtain ⟨r, hr⟩ := h.root
    by_cases he : id = .root
    · subst he
      exact ⟨_, getElem?_update_self f hr⟩
    · exact ⟨r, by rw [getElem?_update_of_ne f he, hr]⟩
  · by_cases he : id = other
    · subst he
      rw [getElem?_update, if_pos rfl] at ht
      obtain ⟨s, hs, rfl⟩ := Option.map_eq_some_iff.mp ht
      have hat := h.scope id s hs
      obtain ⟨hnodup, hchild⟩ := hlist s hs
      exact ⟨(hid s).trans hat.id_eq, by rw [hparent]; exact hat.parent_none_iff,
        fun parent hp => hat.parent_lt parent (hparent s ▸ hp), hnodup,
        fun child hm => hc child id (hchild child hm)⟩
    · rw [getElem?_update_of_ne f he] at ht
      exact (h.scope other t ht).mono hc

theorem update_of_appended_eq (h : a.Linked) (id : ScopeId) {f : Scope V → Scope V}
    (hid : ∀ s, (f s).id = s.id) (hparent : ∀ s, (f s).parent? = s.parent?)
    (hlist : ∀ s, (f s).appended = s.appended) : (a.update id f).Linked := by
  refine h.update hid hparent fun s hs => ?_
  rw [hlist]
  exact ⟨(h.scope id s hs).nodup, (h.scope id s hs).isChild⟩

theorem join (h : a.Linked) {child parent : ScopeId} (hchild : a.IsChild child parent) :
    (a.update parent (·.join child)).Linked := by
  refine h.update (fun _ => rfl) (fun _ => rfl) fun s hs => ?_
  have hat := h.scope parent s hs
  by_cases hc : child ∈ s.appended
  · simp only [Scope.join, hc, if_true]
    exact ⟨hat.nodup, hat.isChild⟩
  · simp only [Scope.join, hc, if_false]
    have hnodup : (s.appended ++ [child]).Nodup :=
      List.concat_eq_append ▸ List.Nodup.concat hc hat.nodup
    refine ⟨hnodup, ?_⟩
    exact List.forall_mem_append.mpr ⟨hat.isChild, List.forall_mem_singleton.mpr hchild⟩

theorem extend (h : a.Linked) {parent : ScopeId} {p : Scope V} (hp : a.scopes[parent]? = some p) :
    (a.extend parent).Linked := by
  refine ⟨?_, fun id t ht => ?_⟩
  · obtain ⟨r, hr⟩ := h.root
    exact ⟨r, getElem?_extend_of_some parent hr⟩
  · rw [getElem?_extend] at ht
    by_cases he : id = a.size
    · rw [if_pos he] at ht
      obtain rfl := Option.some.inj ht
      subst he
      have hlt : parent < a.size := lt_size hp
      have hroot : a.size ≠ ScopeId.root := Nat.ne_of_gt (Nat.zero_lt_of_lt hlt)
      refine linkedAt_empty .default ⟨fun hn => by simp at hn, fun hn => absurd hn hroot⟩ ?_
      intro other ho
      obtain rfl := Option.some.inj ho
      exact hlt
    · rw [if_neg he] at ht
      exact (h.scope id t ht).mono fun _ _ hc => isChild_extend hc

/-! ### What the calls leave -/

variable {b : Arena V}

theorem of_addChild (h : a.Linked) {parent id : ScopeId} (hb : a.addChild parent = .ok (id, b)) :
    b.Linked := by
  cases hp : a.scope parent with
  | error e => simp [addChild, hp, Except.map] at hb
  | ok p =>
    have hp' := scope_eq_ok_iff.mp hp
    rw [addChild_eq hp'] at hb
    obtain ⟨-, rfl⟩ := Prod.mk.inj (Except.ok.inj hb)
    exact h.extend hp'

theorem of_put (h : a.Linked) {id : ScopeId} {key : String} {entry : Entry V}
    {before : Option (Entry V)} (hb : a.put id key entry = .ok (before, b)) : b.Linked := by
  cases hs : a.scope id with
  | error e => simp [put, hs, Except.map] at hb
  | ok s =>
    rw [put_eq key entry (scope_eq_ok_iff.mp hs)] at hb
    obtain ⟨-, rfl⟩ := Prod.mk.inj (Except.ok.inj hb)
    exact h.update_of_appended_eq id (fun _ => rfl) (fun _ => rfl) fun _ => rfl

theorem of_setPolicy (h : a.Linked) {id : ScopeId} {policy : Policy}
    (hb : a.setPolicy id policy = .ok b) : b.Linked := by
  cases hs : a.scope id with
  | error e => simp [setPolicy, hs, Except.map] at hb
  | ok s =>
    rw [setPolicy_eq policy (scope_eq_ok_iff.mp hs)] at hb
    obtain rfl := Except.ok.inj hb
    exact h.update_of_appended_eq id (fun _ => rfl) (fun _ => rfl) fun _ => rfl

theorem of_append (h : a.Linked) {child : ScopeId} {joined : Bool}
    (hb : a.append child = .ok (joined, b)) : b.Linked := by
  obtain ⟨parent, p, hchild, hp⟩ := exists_of_append hb
  rw [append_eq_join hchild hp] at hb
  obtain ⟨-, rfl⟩ := Prod.mk.inj (Except.ok.inj hb)
  exact h.join hchild

end Linked

end Arena

end ScopedConfig
