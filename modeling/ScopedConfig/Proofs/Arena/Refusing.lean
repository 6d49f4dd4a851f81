import ScopedConfig.Proofs.Arena.Walking

/-!
# Where a walk is refused

A walk that writes creates scopes as it goes, and a refusal takes none of them back. But a scope
that was just created is empty and refuses nothing, so behind the first one a walk can only fail at
an index: there is no list in an empty scope. Whatever else refuses a walk refuses it before
anything was created, and then the arena is as it was.

Key definitions: `Scope.IsFresh`, `Arena.Reaching`.
Key theorems: `Arena.Sound.reaching`, `Arena.Sound.kind_of_lookUp`.
-/

namespace ScopedConfig

variable {V : Type}

/-- The scope holds nothing and refuses nothing. -/
structure Scope.IsFresh (s : Scope V) : Prop where
  policy : s.policy = .default
  entries : s.entries = []
  appended : s.appended = []

theorem Scope.isFresh_empty (id : ScopeId) (parent? : Option ScopeId) :
    (empty id parent? .default : Scope V).IsFresh :=
  ⟨rfl, rfl, rfl⟩

theorem Scope.IsFresh.find?_eq_none {s : Scope V} (h : s.IsFresh) (key : String) :
    s.find? key = none := by
  rw [find?, h.entries]
  rfl

theorem Scope.IsFresh.allows {s : Scope V} (h : s.IsFresh) (key : String) : s.Allows key :=
  allows_iff.mpr (.inl ⟨by rw [holds, h.find?_eq_none]; rfl, by rw [h.policy]; rfl⟩)

namespace Arena

/-- The ways in which a walk ends, seen from the arena it began in. -/
inductive Reaching (a : Arena V) : Except Fault ScopeId × Arena V → Prop
  /-- Everything on the way was there. -/
  | along (target : ScopeId) : Reaching a (.ok target, a)
  /-- The last scope on the way was created. -/
  | created {target : ScopeId} {t : Scope V} {b : Arena V} (scope : b.scopes[target]? = some t)
      (fresh : t.IsFresh) : Reaching a (.ok target, b)
  /-- Nothing was created. -/
  | refused {e : Fault} (kind : e.kind = .violation) : Reaching a (.error e, a)
  | outOfRange {e : Fault} {b : Arena V} (code : e.code = .scopeIndexOutOfRange) :
      Reaching a (.error e, b)

theorem enterKey_of_isFresh {b : Arena V} {id : ScopeId} {s : Scope V}
    (hs : b.scopes[id]? = some s) (hf : s.IsFresh) (key : String) :
    b.enterKey id key = .ok (b.size, b.sprout id key) := by
  simp only [enterKey, scope_eq hs, hf.find?_eq_none, hf.policy, Policy.default,
    Bool.false_eq_true, if_false, addUnder_eq key hs]

theorem getElem?_sprout_self {b : Arena V} {id : ScopeId} {s : Scope V} (key : String)
    (hs : b.scopes[id]? = some s) :
    (b.sprout id key).scopes[b.size]? = some (.empty b.size (some id) .default) := by
  rw [sprout, getElem?_update_of_ne _ (Nat.ne_of_lt (lt_size hs)), getElem?_extend_self]

/-- **A walk from an empty scope creates all it needs, or fails at an index.** -/
theorem reaching_of_isFresh (a : Arena V) : ∀ {segments : List Segment} {b : Arena V}
    {id : ScopeId} {s : Scope V}, b.scopes[id]? = some s → s.IsFresh → .anonymous ∉ segments →
      a.Reaching (b.walk id segments)
  | [], _, _, _, hs, hf, _ => .created hs hf
  | .key key :: rest, b, id, s, hs, hf, hne => by
    simp only [walk, enter, enterKey_of_isFresh hs hf key]
    exact reaching_of_isFresh a (getElem?_sprout_self key hs) (Scope.isFresh_empty _ _)
      fun hm => hne (List.mem_cons_of_mem _ hm)
  | .index none i :: rest, b, id, s, hs, hf, _ => by
    simp only [walk, enter, enterIndex, scope_eq hs, hf.appended, List.getElem?_nil, Except.map]
    exact .outOfRange rfl
  | .index (some key) i :: rest, b, id, s, hs, hf, _ => by
    simp only [walk, enter, enterList, scope_eq hs, hf.find?_eq_none]
    exact .outOfRange rfl
  | .anonymous :: rest, _, _, _, _, _, hne => absurd (List.mem_cons_self ..) hne

/-- A segment that is refused is refused for what the scopes are, unless it is the marker. -/
theorem kind_of_enter {a : Arena V} (h : a.Sound) {id : ScopeId} {s : Scope V}
    (hs : a.scopes[id]? = some s) {segment : Segment} (hne : segment ≠ .anonymous) {e : Fault}
    (he : a.enter id segment = .error e) : e.kind = .violation := by
  cases segment with
  | anonymous => exact absurd rfl hne
  | key key =>
    rw [enter] at he
    rcases enterKey_cases hs key with ⟨child, -, hx⟩ | ⟨-, ⟨-, hx⟩ | ⟨-, e', hcode, hx⟩⟩
    · simp [hx] at he
    · simp [hx] at he
    · obtain rfl := Except.error.inj (hx.symm.trans he)
      rcases hcode with hcode | hcode <;> rw [Fault.kind, hcode] <;> rfl
  | index list? i =>
    cases list? with
    | none =>
      rw [enter] at he
      rcases Sound.enterIndex_cases hs i with ⟨child, hi, -⟩ | ⟨e', hi, hcode⟩
      · rw [hi] at he
        simp [Except.map] at he
      · rw [hi] at he
        obtain rfl := Except.error.inj he
        rw [Fault.kind, hcode]
        rfl
    | some key =>
      simp only [enter, enterList, scope_eq hs] at he
      cases hk : s.find? key with
      | none =>
        rw [hk] at he
        obtain rfl := Except.error.inj he
        rfl
      | some entry =>
        rw [hk] at he
        cases entry with
        | value v =>
          obtain rfl := Except.error.inj he
          rfl
        | scope list =>
          obtain ⟨t, ht⟩ := h.exists_of_holds (holds_key hs hk)
          rcases Sound.enterIndex_cases ht i with ⟨child, hi, -⟩ | ⟨e', hi, hcode⟩
          · simp [hi, Except.map] at he
          · simp only [hi] at he
            obtain rfl := Except.error.inj he
            rw [Fault.kind, hcode]
            rfl

namespace Sound

variable {a : Arena V}

/-- **Only an index is refused behind what a walk has created.** The induction is on the segments
as long as they lead along what is there; from the first scope that is created on, every scope on
the way is an empty one. -/
theorem reaching (h : a.Sound) : ∀ {segments : List Segment} {id : ScopeId} {s : Scope V},
    a.scopes[id]? = some s → .anonymous ∉ segments → a.Reaching (a.walk id segments)
  | [], id, _, _, _ => .along id
  | segment :: rest, id, s, hs, hne => by
    have hrest : .anonymous ∉ rest := fun hm => hne (List.mem_cons_of_mem _ hm)
    have hseg : segment ≠ .anonymous := fun hm => hne (hm ▸ List.mem_cons_self ..)
    have hx := h.entering hs segment
    have hkind : ∀ e, a.enter id segment = .error e → e.kind = .violation :=
      fun e he => kind_of_enter h hs hseg he
    rw [walk]
    generalize a.enter id segment = x at hx hkind ⊢
    cases hx with
    | found path =>
      obtain ⟨t, ht⟩ := h.exists_of_follow ⟨s, hs⟩ path
      exact h.reaching ht hrest
    | @created t key scope allowed noScope =>
      exact reaching_of_isFresh a (getElem?_sprout_self key scope) (Scope.isFresh_empty _ _) hrest
    | refused consistent => exact .refused (hkind _ rfl)

theorem kind_of_lookUp (h : a.Sound) (address : String) {e : Fault} :
    ∀ {segments : List Segment} {id : ScopeId}, (∃ s, a.scopes[id]? = some s) →
      .anonymous ∉ segments → a.lookUp address id segments = .error e → e.kind = .violation
  | [], id, ⟨s, hs⟩, _, he => by
    simp [lookUp, scope_eq hs, Except.map] at he
  | .key k :: rest, id, ⟨s, hs⟩, hne, he => by
    simp only [lookUp, scope_eq hs] at he
    cases hk : s.find? k with
    | none => simp [hk] at he
    | some entry =>
      cases entry with
      | value v => simp [hk] at he
      | scope child =>
        rw [hk] at he
        exact h.kind_of_lookUp address (h.exists_of_holds (holds_key hs hk))
          (fun hm => hne (List.mem_cons_of_mem _ hm)) he
  | .index none i :: rest, id, ⟨s, hs⟩, hne, he => by
    simp only [lookUp, scope_eq hs] at he
    cases hi : s.appended[i]? with
    | none => simp [hi] at he
    | some child =>
      rw [hi] at he
      exact h.kind_of_lookUp address (h.exists_of_holds (holds_index hs hi))
        (fun hm => hne (List.mem_cons_of_mem _ hm)) he
  | .index (some k) i :: rest, id, ⟨s, hs⟩, hne, he => by
    simp only [lookUp, scope_eq hs] at he
    cases hk : s.find? k with
    | none => simp [hk] at he
    | some entry =>
      cases entry with
      | value v =>
        rw [hk] at he
        obtain rfl := Except.error.inj he
        rfl
      | scope list =>
        obtain ⟨t, ht⟩ := h.exists_of_holds (holds_key hs hk)
        simp only [hk, scope_eq ht] at he
        cases hi : t.appended[i]? with
        | none => simp [hi] at he
        | some child =>
          rw [hi] at he
          exact h.kind_of_lookUp address (h.exists_of_holds (holds_index ht hi))
            (fun hm => hne (List.mem_cons_of_mem _ hm)) he
  | .anonymous :: rest, _, _, hne, _ => absurd (List.mem_cons_self ..) hne

end Sound

end Arena

end ScopedConfig
