import ScopedConfig.Proofs.Workspace.Invariants

/-!
# Protections are permanent

From one state of a document to a later one, a scope keeps its number and its parent, its policy
only tightens and its list only grows at the end. What a final scope holds stays what it is, and a
closed scope gets no new key and no appended scope, and loses none. The six kinds of changes are
gone through once. The one that checks no policy is the leaving of an open scope; there the parent
is not closed, because the cursor keeps its place under an open parent.

Key definitions: `Scope.Later`, `Arena.Later`.
Key theorems: `Workspace.Change.later`, `Workspace.Sound.later_run`, `Workspace.run_permanent`.
-/

namespace ScopedConfig

variable {V : Type}

theorem Policy.isAtLeast_refl (p : Policy) : p.isAtLeast p = true :=
  (isAtLeast_iff p p).mpr ⟨id, id⟩

theorem Policy.isAtLeast_trans {p q r : Policy} (h : p.isAtLeast q = true)
    (h' : q.isAtLeast r = true) : p.isAtLeast r = true := by
  rw [isAtLeast_iff] at h h' ⊢
  exact ⟨fun hr => h.1 (h'.1 hr), fun hr => h.2 (h'.2 hr)⟩

/-! ### One scope, earlier and later -/

namespace Scope

/-- The second scope is what may become of the first. -/
structure Later (s s' : Scope V) : Prop where
  parent : s'.parent? = s.parent?
  policy : s'.policy.isAtLeast s.policy = true
  appended : s.appended <+: s'.appended
  kept : s.policy.isFinal = true → ∀ key entry, s.find? key = some entry →
    s'.find? key = some entry
  closed : s.policy.isClosed = true →
    s'.entries.keys = s.entries.keys ∧ s'.appended = s.appended

namespace Later

variable {s t u : Scope V}

theorem refl (s : Scope V) : s.Later s :=
  ⟨rfl, Policy.isAtLeast_refl s.policy, List.prefix_rfl, fun _ _ _ h => h, fun _ => ⟨rfl, rfl⟩⟩

theorem isFinal (h : s.Later t) (hs : s.policy.isFinal = true) : t.policy.isFinal = true :=
  ((Policy.isAtLeast_iff t.policy s.policy).mp h.policy).1 hs

theorem isClosed (h : s.Later t) (hs : s.policy.isClosed = true) : t.policy.isClosed = true :=
  ((Policy.isAtLeast_iff t.policy s.policy).mp h.policy).2 hs

theorem trans (h : s.Later t) (h' : t.Later u) : s.Later u where
  parent := h'.parent.trans h.parent
  policy := Policy.isAtLeast_trans h'.policy h.policy
  appended := h.appended.trans h'.appended
  kept hs key entry hk := h'.kept (h.isFinal hs) key entry (h.kept hs key entry hk)
  closed hs := by
    obtain ⟨hk, ha⟩ := h.closed hs
    obtain ⟨hk', ha'⟩ := h'.closed (h.isClosed hs)
    exact ⟨hk'.trans hk, ha'.trans ha⟩

/-- A write that the policy allows goes around what is protected: a final scope does not hold the
key yet, and a closed one holds it already. -/
theorem of_put {key : String} (entry : Entry V) (hs : s.entries.Sorted) (allowed : s.Allows key) :
    s.Later (s.put key entry) where
  parent := rfl
  policy := Policy.isAtLeast_refl s.policy
  appended := List.prefix_rfl
  kept hf other held hk := by
    rw [find?_put, if_neg, hk]
    rintro rfl
    have hh : s.holds other = true := by rw [holds, hk]; rfl
    rw [allowed.1 hh] at hf
    exact absurd hf (by decide)
  closed hc := by
    refine ⟨?_, rfl⟩
    cases hk : s.find? key with
    | none =>
      have hh : s.holds key = false := by rw [holds, hk]; rfl
      rw [allowed.2 hh] at hc
      exact absurd hc (by decide)
    | some held => exact Table.keys_insert_of_mem entry hs (Table.mem_keys_of_find? hk)

theorem of_restrict {policy : Policy} (h : policy.isAtLeast s.policy = true) :
    s.Later (s.restrict policy) :=
  ⟨rfl, h, List.prefix_rfl, fun _ _ _ hk => hk, fun _ => ⟨rfl, rfl⟩⟩

theorem of_adopt {child : ScopeId} (h : s.policy.isClosed = false) : s.Later (s.adopt child) where
  parent := rfl
  policy := Policy.isAtLeast_refl s.policy
  appended := List.prefix_append s.appended [child]
  kept _ _ _ hk := hk
  closed hc := by
    rw [h] at hc
    exact absurd hc (by decide)

end Later

end Scope

/-! ### The arena, earlier and later -/

namespace Arena

/-- Every scope of the first arena is in the second what may have become of it. -/
def Later (a b : Arena V) : Prop :=
  ∀ (id : ScopeId) (s : Scope V), a.scopes[id]? = some s →
    ∃ s' : Scope V, b.scopes[id]? = some s' ∧ s.Later s'

namespace Later

variable {a b c : Arena V}

theorem refl (a : Arena V) : a.Later a :=
  fun _ s hs => ⟨s, hs, .refl s⟩

theorem trans (h : a.Later b) (h' : b.Later c) : a.Later c := by
  intro id s hs
  obtain ⟨t, ht, hst⟩ := h id s hs
  obtain ⟨u, hu, htu⟩ := h' id t ht
  exact ⟨u, hu, hst.trans htu⟩

theorem of_extend (a : Arena V) (parent : ScopeId) : a.Later (a.extend parent) :=
  fun _ s hs => ⟨s, getElem?_extend_of_some parent hs, .refl s⟩

theorem of_update {id : ScopeId} {s : Scope V} {f : Scope V → Scope V}
    (hs : a.scopes[id]? = some s) (h : s.Later (f s)) : a.Later (a.update id f) := by
  intro other t ht
  by_cases ho : id = other
  · subst ho
    rw [hs] at ht
    obtain rfl := Option.some.inj ht
    exact ⟨_, getElem?_update_self f hs, h⟩
  · exact ⟨t, by rw [getElem?_update_of_ne f ho, ht], .refl t⟩

end Later

end Arena

namespace Workspace

variable {w w' : Workspace V}

/-- **A change takes no protection back.** -/
theorem Change.later (h : w.Sound) (c : Change w w') : w.arena.Later w'.arena := by
  cases c with
  | remember segments => exact .refl w.arena
  | @write id s key v target scope allowed =>
    exact .of_update scope (.of_put _ (h.arena.scope id s scope).sorted allowed)
  | @sprout id s key global target scope allowed noScope =>
    have hx : (w.arena.extend id).scopes[id]? = some s := Arena.getElem?_extend_of_some id scope
    exact .trans (.of_extend w.arena id)
      (.of_update hx (.of_put _ (h.arena.scope id s scope).sorted allowed))
  | restrict target scope stricter => exact .of_update scope (.of_restrict stricter)
  | @enter path id s global target scope isOpen => exact .of_extend w.arena id
  | @leave o parent cursor child =>
    -- nothing is checked here: that the parent is open is what the cursor keeps
    have hl : o.LiveUnder w.arena parent := h.liveUnder cursor child
    obtain ⟨p, hp⟩ := hl.exists_parent h.arena
    exact .of_update hp (.of_adopt (hl.isOpen p hp))

theorem Changes.later (h : w.Sound) (c : Changes w w') : w.arena.Later w'.arena := by
  induction c with
  | refl => exact .refl w.arena
  | tail c c' ih => exact ih.trans (c'.later (Changes.sound h c))

/-- **A run takes no protection back.** -/
theorem Sound.later_run (h : w.Sound) (ops : List (Operation V)) :
    w.arena.Later (w.run ops).arena :=
  (h.run ops).later h

/-- **Protections are permanent.** Whatever is done after a run, each scope of the arena, held or
not, has a policy at least as strict as it had; what it held when it was final it still holds; and
when it was closed, its keys and its list are what they were. So a scope that is open now never
joins the list of a scope that is closed now. -/
theorem run_permanent (policy : Policy) (remembered : List String) (ops more : List (Operation V)) :
    let w := (ofPolicy policy remembered).run ops
    (∀ (id : ScopeId) (s : Scope V), w.arena.scopes[id]? = some s →
      ∃ s' : Scope V, (w.run more).arena.scopes[id]? = some s' ∧
        s'.policy.isAtLeast s.policy = true ∧
        (s.policy.isFinal = true → ∀ key entry, s.find? key = some entry →
          s'.find? key = some entry) ∧
        (s.policy.isClosed = true →
          s'.entries.keys = s.entries.keys ∧ s'.appended = s.appended)) ∧
    (∀ o, w.cursor = some o → ∀ (id : ScopeId) (s s' : Scope V), w.arena.scopes[id]? = some s →
      s.policy.isClosed = true → (w.run more).arena.scopes[id]? = some s' →
        o.id ∉ s'.appended) := by
  intro w
  have h : w.Sound := sound_run policy remembered ops
  refine ⟨fun id s hs => ?_, fun o ho id s s' hs hc hs' => ?_⟩
  · obtain ⟨s', hs', hl⟩ := h.later_run more id s hs
    exact ⟨s', hs', hl.policy, hl.kept, hl.closed⟩
  · obtain ⟨t, ht, hl⟩ := h.later_run more id s hs
    rw [hs'] at ht
    obtain rfl := Option.some.inj ht
    obtain ⟨parent, live⟩ := h.live o ho
    rw [(hl.closed hc).2]
    exact live.not_mem_appended hs

end Workspace

end ScopedConfig
