import ScopedConfig.Arena.Walk
import ScopedConfig.Proofs.Arena.Holding

/-!
# Writing into a sound arena

Every operation on an arena either adds an empty scope at its end or rewrites one scope, and none of
them changes the number or the parent of a scope. Here each operation is given by what it does when
the scopes it touches exist, together with who holds whom afterwards, and each is shown to keep the
arena sound: a new scope is held by nobody, so it may be put under a key, and an open scope may join
the list of its parent because nobody holds it either.

Key definitions: `Arena.extend`, `Arena.sprout`, `Scope.put`, `Scope.adopt`, `Scope.restrict`.
Key theorems: `Arena.Sound.update`, `Arena.Sound.extend`, `Arena.Sound.sprout`, `Arena.Sound.adopt`.
-/

namespace ScopedConfig

variable {V : Type}

/-! ### What is written into one scope -/

namespace Scope

/-- Writes an entry. -/
def put (s : Scope V) (key : String) (entry : Entry V) : Scope V :=
  { s with entries := s.entries.insert key entry }

/-- Appends a scope. -/
def adopt (s : Scope V) (child : ScopeId) : Scope V :=
  { s with appended := s.appended ++ [child] }

/-- Gives the scope a policy. -/
def restrict (s : Scope V) (policy : Policy) : Scope V :=
  { s with policy := policy }

theorem next?_key {s : Scope V} {key : String} {child : ScopeId}
    (h : s.find? key = some (.scope child)) : s.next? (.key key) = some child := by
  rw [next?, h]
  rfl

theorem next?_empty (id : ScopeId) (parent? : Option ScopeId) (policy : Policy) (step : Step) :
    (empty id parent? policy : Scope V).next? step = none := by
  cases step <;> rfl

theorem find?_put (s : Scope V) (key other : String) (entry : Entry V) :
    (s.put key entry).find? other = if other = key then some entry else s.find? other :=
  Table.find?_insert key other entry s.entries

theorem next?_put (s : Scope V) (key : String) (entry : Entry V) (step : Step) :
    (s.put key entry).next? step = if step = .key key then entry.scope? else s.next? step := by
  cases step with
  | key k =>
    simp only [next?, find?_put, Step.key.injEq]
    split <;> rfl
  | index i => rfl

theorem next?_adopt (s : Scope V) (child : ScopeId) (step : Step) :
    (s.adopt child).next? step =
      if step = .index s.appended.length then some child else s.next? step := by
  cases step with
  | key k => rfl
  | index i =>
    simp only [next?, adopt, Step.index.injEq]
    by_cases hi : i = s.appended.length
    · rw [if_pos hi, hi, List.getElem?_concat_length]
    · rw [if_neg hi]
      rcases Nat.lt_or_gt_of_ne hi with hlt | hgt
      · exact List.getElem?_append_left hlt
      · rw [List.getElem?_eq_none (by simp; omega), List.getElem?_eq_none (by omega)]

theorem next?_restrict (s : Scope V) (policy : Policy) (step : Step) :
    (s.restrict policy).next? step = s.next? step := by
  cases step <;> rfl

theorem next?_of_mem_appended {s : Scope V} {child : ScopeId} (h : child ∈ s.appended) :
    ∃ i, s.next? (.index i) = some child :=
  List.mem_iff_getElem?.mp h

end Scope

namespace Arena

/-- The arena with one more empty scope, created in a scope. -/
def extend (a : Arena V) (parent : ScopeId) : Arena V :=
  ⟨a.scopes.push (.empty a.size (some parent) .default)⟩

/-- The arena with one more empty scope, created in a scope and put under a key of it. -/
def sprout (a : Arena V) (id : ScopeId) (key : String) : Arena V :=
  (a.extend id).update id (·.put key (.scope a.size))

/-! ### The scopes after an operation -/

theorem lt_size {a : Arena V} {id : ScopeId} {s : Scope V} (h : a.scopes[id]? = some s) :
    id < a.size :=
  (Array.getElem?_eq_some_iff.mp h).1

theorem getElem?_update_self {a : Arena V} {id : ScopeId} {s : Scope V} (f : Scope V → Scope V)
    (h : a.scopes[id]? = some s) : (a.update id f).scopes[id]? = some (f s) := by
  rw [getElem?_update, if_pos rfl, h]
  rfl

theorem getElem?_update_of_ne {a : Arena V} {id other : ScopeId} (f : Scope V → Scope V)
    (h : id ≠ other) : (a.update id f).scopes[other]? = a.scopes[other]? := by
  rw [getElem?_update, if_neg h]

theorem getElem?_extend (a : Arena V) (parent id : ScopeId) :
    (a.extend parent).scopes[id]? =
      if id = a.size then some (.empty a.size (some parent) .default) else a.scopes[id]? :=
  Array.getElem?_push

theorem getElem?_extend_of_some {a : Arena V} {id : ScopeId} {s : Scope V} (parent : ScopeId)
    (h : a.scopes[id]? = some s) : (a.extend parent).scopes[id]? = some s := by
  rw [getElem?_extend, if_neg (Nat.ne_of_lt (lt_size h)), h]

theorem getElem?_extend_self (a : Arena V) (parent : ScopeId) :
    (a.extend parent).scopes[a.size]? = some (.empty a.size (some parent) .default) := by
  rw [getElem?_extend, if_pos rfl]

theorem size_extend (a : Arena V) (parent : ScopeId) : (a.extend parent).size = a.size + 1 :=
  Array.size_push _

/-! ### The operations, where the scopes exist -/

theorem scope_eq {a : Arena V} {id : ScopeId} {s : Scope V} (h : a.scopes[id]? = some s) :
    a.scope id = .ok s :=
  scope_eq_ok_iff.mpr h

theorem addChild_eq {a : Arena V} {parent : ScopeId} {s : Scope V}
    (h : a.scopes[parent]? = some s) : a.addChild parent = .ok (a.size, a.extend parent) := by
  rw [addChild, scope_eq h]
  rfl

theorem put_eq {a : Arena V} {id : ScopeId} {s : Scope V} (key : String) (entry : Entry V)
    (h : a.scopes[id]? = some s) :
    a.put id key entry = .ok (s.find? key, a.update id (·.put key entry)) := by
  rw [put, scope_eq h]
  rfl

theorem setPolicy_eq {a : Arena V} {id : ScopeId} {s : Scope V} (policy : Policy)
    (h : a.scopes[id]? = some s) :
    a.setPolicy id policy = .ok (a.update id (·.restrict policy)) := by
  rw [setPolicy, scope_eq h]
  rfl

theorem append_eq {a : Arena V} {child parent : ScopeId} {s p : Scope V}
    (hs : a.scopes[child]? = some s) (hp : s.parent? = some parent)
    (h : a.scopes[parent]? = some p) (hc : child ∉ p.appended) :
    a.append child = .ok (true, a.update parent (·.adopt child)) := by
  simp only [append, scope_eq hs, hp, scope_eq h, Except.map]
  rw [if_neg (by simpa using hc)]
  rfl

theorem addUnder_eq {a : Arena V} {id : ScopeId} {s : Scope V} (key : String)
    (h : a.scopes[id]? = some s) : a.addUnder id key = .ok (a.size, a.sprout id key) := by
  have hx : (a.extend id).scopes[id]? = some s := getElem?_extend_of_some id h
  rw [addUnder, addChild_eq h]
  show ((a.extend id).put id key (.scope a.size)).map _ = _
  rw [put_eq key _ hx]
  rfl

/-! ### Who holds whom after an operation -/

theorem holds_update_self {a : Arena V} {id child : ScopeId} {step : Step} {s : Scope V}
    (f : Scope V → Scope V) (h : a.scopes[id]? = some s) :
    (a.update id f).Holds id step child ↔ (f s).next? step = some child := by
  simp [Holds, getElem?_update_self f h]

theorem holds_update_of_ne {a : Arena V} {id other child : ScopeId} {step : Step}
    (f : Scope V → Scope V) (h : id ≠ other) :
    (a.update id f).Holds other step child ↔ a.Holds other step child := by
  simp only [Holds, getElem?_update_of_ne f h]

theorem holds_update_iff {a : Arena V} {id other child : ScopeId} {step : Step} {s : Scope V}
    (f : Scope V → Scope V) (h : a.scopes[id]? = some s)
    (hf : ∀ step, (f s).next? step = s.next? step) :
    (a.update id f).Holds other step child ↔ a.Holds other step child := by
  by_cases ho : id = other
  · subst ho
    rw [holds_update_self f h, hf]
    simp [Holds, h]
  · exact holds_update_of_ne f ho

theorem holds_extend_iff {a : Arena V} {parent id child : ScopeId} {step : Step} :
    (a.extend parent).Holds id step child ↔ a.Holds id step child := by
  by_cases hid : id = a.size
  · subst hid
    have hnone : a.scopes[a.size]? = none := Array.getElem?_eq_none (Nat.le_refl _)
    simp [Holds, getElem?_extend_self, hnone, Scope.next?_empty]
  · simp only [Holds, getElem?_extend, if_neg hid]

theorem holds_adopt {a : Arena V} {id child other held : ScopeId} {step : Step}
    (h : a.Holds other step held) : (a.update id (·.adopt child)).Holds other step held := by
  by_cases ho : id = other
  · subst ho
    obtain ⟨s, hs, hn⟩ := h
    rw [holds_update_self _ hs, Scope.next?_adopt, if_neg, hn]
    rintro rfl
    rw [Scope.next?, List.getElem?_eq_none (Nat.le_refl _)] at hn
    exact absurd hn (by simp)
  · exact (holds_update_of_ne _ ho).mpr h

theorem holds_sprout {a : Arena V} {id other held : ScopeId} {s : Scope V} {key : String}
    {step : Step} (hs : a.scopes[id]? = some s) (hk : s.next? (.key key) = none)
    (h : a.Holds other step held) : (a.sprout id key).Holds other step held := by
  have hx : (a.extend id).scopes[id]? = some s := getElem?_extend_of_some id hs
  have h' : (a.extend id).Holds other step held := holds_extend_iff.mpr h
  by_cases ho : id = other
  · subst ho
    obtain ⟨t, ht, hn⟩ := h
    rw [hs] at ht
    obtain rfl := Option.some.inj ht
    rw [sprout, holds_update_self _ hx, Scope.next?_put, if_neg, hn]
    rintro rfl
    rw [hk] at hn
    exact absurd hn (by simp)
  · exact (holds_update_of_ne _ ho).mpr h'

theorem holds_sprout_self {a : Arena V} {id : ScopeId} {s : Scope V} (key : String)
    (hs : a.scopes[id]? = some s) : (a.sprout id key).Holds id (.key key) a.size := by
  have hx : (a.extend id).scopes[id]? = some s := getElem?_extend_of_some id hs
  rw [sprout, holds_update_self _ hx, Scope.next?_put, if_pos rfl]
  rfl

theorem of_holds_putValue {a : Arena V} {id other held : ScopeId} {s : Scope V} {key : String}
    {v : V} {step : Step} (hs : a.scopes[id]? = some s)
    (h : (a.update id (·.put key (.value v))).Holds other step held) : a.Holds other step held := by
  by_cases ho : id = other
  · subst ho
    rw [holds_update_self _ hs, Scope.next?_put] at h
    split at h
    · exact absurd h (by simp [Entry.scope?])
    · exact ⟨s, hs, h⟩
  · exact (holds_update_of_ne _ ho).mp h

theorem of_holds_adopt {a : Arena V} {id child other held : ScopeId} {s : Scope V} {step : Step}
    (hs : a.scopes[id]? = some s) (h : (a.update id (·.adopt child)).Holds other step held) :
    a.Holds other step held ∨ held = child := by
  by_cases ho : id = other
  · subst ho
    rw [holds_update_self _ hs, Scope.next?_adopt] at h
    split at h
    · exact .inr (Option.some.inj h).symm
    · exact .inl ⟨s, hs, h⟩
  · exact .inl ((holds_update_of_ne _ ho).mp h)

theorem of_holds_sprout {a : Arena V} {id other held : ScopeId} {s : Scope V} {key : String}
    {step : Step} (hs : a.scopes[id]? = some s) (h : (a.sprout id key).Holds other step held) :
    a.Holds other step held ∨ other = id ∧ step = .key key ∧ held = a.size := by
  have hx : (a.extend id).scopes[id]? = some s := getElem?_extend_of_some id hs
  by_cases ho : id = other
  · subst ho
    rw [sprout, holds_update_self _ hx, Scope.next?_put] at h
    split at h
    · rename_i hstep
      exact .inr ⟨rfl, hstep, (Option.some.inj h).symm⟩
    · exact .inl ⟨s, hs, h⟩
  · exact .inl (holds_extend_iff.mp ((holds_update_of_ne _ ho).mp h))

theorem isChild_update_iff {a : Arena V} {id child parent : ScopeId} {f : Scope V → Scope V}
    (hf : ∀ s, (f s).parent? = s.parent?) :
    (a.update id f).IsChild child parent ↔ a.IsChild child parent := by
  unfold IsChild
  rw [getElem?_update]
  split
  · cases a.scopes[child]? <;> simp [hf]
  · rfl

theorem isChild_extend {a : Arena V} {parent child holder : ScopeId}
    (h : a.IsChild child holder) : (a.extend parent).IsChild child holder := by
  obtain ⟨s, hs, hp⟩ := h
  exact ⟨s, getElem?_extend_of_some parent hs, hp⟩

theorem isChild_extend_self (a : Arena V) (parent : ScopeId) :
    (a.extend parent).IsChild a.size parent :=
  ⟨_, getElem?_extend_self a parent, rfl⟩

/-! ### Soundness after an operation -/

theorem SoundAt.mono {a b : Arena V} {id : ScopeId} {s : Scope V} (h : a.SoundAt id s)
    (hc : ∀ child parent, a.IsChild child parent → b.IsChild child parent) : b.SoundAt id s :=
  { h with isChild := fun step child hn => hc child id (h.isChild step child hn) }

theorem soundAt_empty {a : Arena V} {id : ScopeId} {parent? : Option ScopeId} (policy : Policy)
    (hnone : parent? = none ↔ id = .root) (hlt : ∀ parent, parent? = some parent → parent < id) :
    a.SoundAt id (.empty id parent? policy) := by
  refine ⟨rfl, hnone, hlt, Table.sorted_nil, List.Pairwise.nil, ?_, ?_⟩
  · intro step child hn
    rw [Scope.next?_empty] at hn
    exact absurd hn (by simp)
  · intro step step' child hn
    rw [Scope.next?_empty] at hn
    exact absurd hn (by simp)

theorem sound_ofPolicy (policy : Policy) : (ofPolicy policy : Arena V).Sound := by
  refine ⟨⟨_, rfl⟩, fun id s hs => ?_⟩
  obtain ⟨hlt, rfl⟩ := Array.getElem?_eq_some_iff.mp hs
  obtain rfl : id = .root := Nat.lt_one_iff.mp hlt
  exact soundAt_empty policy ⟨fun _ => rfl, fun _ => rfl⟩ fun p hp => absurd hp (by simp)

namespace Sound

variable {a : Arena V}

/-- **A rewritten scope accounts for itself alone.** -/
theorem update (h : a.Sound) {id : ScopeId} {s : Scope V} {f : Scope V → Scope V}
    (hs : a.scopes[id]? = some s) (hp : ∀ s, (f s).parent? = s.parent?)
    (hf : a.SoundAt id (f s)) : (a.update id f).Sound := by
  have hc : ∀ child parent, a.IsChild child parent → (a.update id f).IsChild child parent :=
    fun _ _ hc => (isChild_update_iff hp).mpr hc
  refine ⟨?_, fun other t ht => ?_⟩
  · obtain ⟨r, hr⟩ := h.root
    by_cases he : id = .root
    · subst he
      exact ⟨_, getElem?_update_self f hr⟩
    · exact ⟨r, by rw [getElem?_update_of_ne f he, hr]⟩
  · by_cases he : id = other
    · subst he
      rw [getElem?_update_self f hs] at ht
      obtain rfl := Option.some.inj ht
      exact hf.mono hc
    · rw [getElem?_update_of_ne f he] at ht
      exact (h.scope other t ht).mono hc

theorem extend (h : a.Sound) {parent : ScopeId} {s : Scope V} (hs : a.scopes[parent]? = some s) :
    (a.extend parent).Sound := by
  refine ⟨?_, fun id t ht => ?_⟩
  · obtain ⟨r, hr⟩ := h.root
    exact ⟨r, getElem?_extend_of_some parent hr⟩
  · rw [getElem?_extend] at ht
    split at ht
    · rename_i he
      obtain rfl := Option.some.inj ht
      subst he
      have hlt : parent < a.size := lt_size hs
      refine soundAt_empty .default ⟨fun hn => by simp at hn, fun hn => ?_⟩ fun p hp => ?_
      · rw [hn] at hlt
        exact absurd hlt (Nat.not_lt_zero parent)
      · obtain rfl := Option.some.inj hp
        exact hlt
    · exact (h.scope id t ht).mono fun _ _ hc => isChild_extend hc

theorem restrict (h : a.Sound) {id : ScopeId} {s : Scope V} (hs : a.scopes[id]? = some s)
    (policy : Policy) : (a.update id (·.restrict policy)).Sound := by
  have hat := h.scope id s hs
  refine h.update hs (fun _ => rfl)
    ⟨hat.id_eq, hat.parent_none_iff, hat.parent_lt, hat.sorted, hat.ascending, ?_, ?_⟩
  · intro step child hn
    rw [Scope.next?_restrict] at hn
    exact hat.isChild step child hn
  · intro step step' child hn hn'
    rw [Scope.next?_restrict] at hn hn'
    exact hat.once step step' child hn hn'

/-- An entry that is put keeps an arena sound if it is a value, or a scope created there that
nobody holds. -/
theorem put (h : a.Sound) {id : ScopeId} {s : Scope V} (hs : a.scopes[id]? = some s) (key : String)
    {entry : Entry V} (hchild : ∀ child, entry.scope? = some child → a.IsChild child id)
    (hfree : ∀ child, entry.scope? = some child → ∀ step, s.next? step ≠ some child) :
    (a.update id (·.put key entry)).Sound := by
  have hat := h.scope id s hs
  refine h.update hs (fun _ => rfl)
    ⟨hat.id_eq, hat.parent_none_iff, hat.parent_lt, Table.sorted_insert key entry hat.sorted,
      hat.ascending, ?_, ?_⟩
  · intro step child hn
    rw [Scope.next?_put] at hn
    split at hn
    · exact hchild child hn
    · exact hat.isChild step child hn
  · intro step step' child hn hn'
    rw [Scope.next?_put] at hn hn'
    split at hn <;> split at hn'
    · rename_i he he'
      rw [he, he']
    · exact absurd hn' (hfree child hn step')
    · exact absurd hn (hfree child hn' step)
    · exact hat.once step step' child hn hn'

theorem putValue (h : a.Sound) {id : ScopeId} {s : Scope V} (hs : a.scopes[id]? = some s)
    (key : String) (v : V) : (a.update id (·.put key (.value v))).Sound :=
  h.put hs key (fun _ hc => by simp [Entry.scope?] at hc) (fun _ hc => by simp [Entry.scope?] at hc)

theorem sprout (h : a.Sound) {id : ScopeId} {s : Scope V} (hs : a.scopes[id]? = some s)
    (key : String) : (a.sprout id key).Sound := by
  have hx : (a.extend id).scopes[id]? = some s := getElem?_extend_of_some id hs
  refine (h.extend hs).put hx key (fun child hc => ?_) (fun child hc step hn => ?_)
  · obtain rfl := Option.some.inj hc
    exact isChild_extend_self a id
  · -- what the scope held before was there before
    obtain rfl := Option.some.inj hc
    obtain ⟨t, ht, -⟩ := (h.scope id s hs).isChild step a.size hn
    exact absurd (lt_size ht) (Nat.lt_irrefl a.size)

/-- The last scope of an arena may join its parent's list if nobody holds it. -/
theorem adopt (h : a.Sound) {id child : ScopeId} {s : Scope V} (hs : a.scopes[id]? = some s)
    (hchild : a.IsChild child id) (hlast : child + 1 = a.size)
    (hfree : ∀ step, s.next? step ≠ some child) : (a.update id (·.adopt child)).Sound := by
  have hat := h.scope id s hs
  refine h.update hs (fun _ => rfl)
    ⟨hat.id_eq, hat.parent_none_iff, hat.parent_lt, hat.sorted, ?_, ?_, ?_⟩
  · refine List.pairwise_append.mpr ⟨hat.ascending, List.pairwise_singleton .., ?_⟩
    intro other ho last hl
    obtain rfl := List.mem_singleton.mp hl
    obtain ⟨i, hi⟩ := Scope.next?_of_mem_appended ho
    obtain ⟨t, ht, -⟩ := hat.isChild _ other hi
    have hlt : other < last + 1 := hlast ▸ lt_size ht
    have hne : other ≠ last := fun he => hfree (.index i) (he ▸ hi)
    exact Nat.lt_of_le_of_ne (Nat.le_of_lt_succ hlt) hne
  · intro step other hn
    rw [Scope.next?_adopt] at hn
    split at hn
    · obtain rfl := Option.some.inj hn
      exact hchild
    · exact hat.isChild step other hn
  · intro step step' other hn hn'
    rw [Scope.next?_adopt] at hn hn'
    split at hn <;> split at hn'
    · rename_i he he'
      rw [he, he']
    · obtain rfl := Option.some.inj hn
      exact absurd hn' (hfree step')
    · obtain rfl := Option.some.inj hn'
      exact absurd hn (hfree step)
    · exact hat.once step step' other hn hn'

end Sound

end Arena

end ScopedConfig
