import ScopedConfig.Proofs.Arena.Writing

/-!
# Walks in a sound arena

A walk that writes goes on by one segment in three ways: it finds a scope that is there, it creates
one under a key that leads to no scope, or it is refused. A walk that looks up ends in a scope only
where the path of its segments leads. Neither complains of a scope that does not exist, since in a
sound arena whatever is held exists.

Key definitions: `Arena.Entering`, `Arena.Looking`.
Key theorems: `Arena.write_cases`, `Arena.enterKey_cases`, `Arena.Sound.entering`,
`Arena.Sound.looking`, `Arena.Looking.follow`.
-/

namespace ScopedConfig

variable {V : Type}

/-- The policy of a scope allows a write under a key. -/
def Scope.Allows (s : Scope V) (key : String) : Prop :=
  (s.holds key = true → s.policy.isFinal = false) ∧
    (s.holds key = false → s.policy.isClosed = false)

/-- A write is allowed where the key holds nothing and the scope is open, or where the key holds
something and the scope is not final. -/
theorem Scope.allows_iff {s : Scope V} {key : String} : s.Allows key ↔
    s.holds key = false ∧ s.policy.isClosed = false ∨
      s.holds key = true ∧ s.policy.isFinal = false := by
  unfold Allows
  cases s.holds key <;> simp

/-- A fault that is no fault of the library. -/
def Fault.Consistent (e : Fault) : Prop :=
  e.code ≠ .scopeConsistency

theorem Fault.consistent_of_malformed {e : Fault} (h : e.kind = .malformed) : e.Consistent := by
  intro hc
  rw [Fault.kind, hc] at h
  exact absurd h (by decide)

namespace Arena

/-- The ways to go on from a scope by a segment. -/
inductive Entering (a : Arena V) (id : ScopeId) : Segment → Except Fault (ScopeId × Arena V) → Prop
  | found {segment : Segment} {next : ScopeId} (path : a.follow id segment.steps = .ok next) :
      Entering a id segment (.ok (next, a))
  | created {s : Scope V} {key : String} (scope : a.scopes[id]? = some s) (allowed : s.Allows key)
      (noScope : s.next? (.key key) = none) :
      Entering a id (.key key) (.ok (a.size, a.sprout id key))
  | refused {segment : Segment} {e : Fault} (consistent : e.Consistent) :
      Entering a id segment (.error e)

/-- The ways in which a look-up goes on from a scope and ends. -/
inductive Looking (a : Arena V) : ScopeId → List Segment → Except Fault (Found V) → Prop
  | here {id : ScopeId} : Looking a id [] (.ok (.scope id))
  | onward {id next : ScopeId} {segment : Segment} {rest : List Segment}
      {result : Except Fault (Found V)} (path : a.follow id segment.steps = .ok next)
      (further : Looking a next rest result) : Looking a id (segment :: rest) result
  | value {id : ScopeId} {s : Scope V} {key : String} {v : V} {rest : List Segment}
      (scope : a.scopes[id]? = some s) (held : s.find? key = some (.value v)) :
      Looking a id (.key key :: rest) (.ok (.value v))
  | nothing {id : ScopeId} {segment : Segment} {rest : List Segment} :
      Looking a id (segment :: rest) (.ok .nothing)
  | refused {id : ScopeId} {segment : Segment} {rest : List Segment} {e : Fault}
      (consistent : e.Consistent) : Looking a id (segment :: rest) (.error e)

/-! ### Where a scope holds what -/

theorem holds_key {a : Arena V} {id child : ScopeId} {s : Scope V} {key : String}
    (hs : a.scopes[id]? = some s) (hk : s.find? key = some (.scope child)) :
    a.Holds id (.key key) child :=
  ⟨s, hs, Scope.next?_key hk⟩

theorem holds_index {a : Arena V} {id child : ScopeId} {s : Scope V} {i : Nat}
    (hs : a.scopes[id]? = some s) (hi : s.appended[i]? = some child) :
    a.Holds id (.index i) child :=
  ⟨s, hs, hi⟩

/-- **A value is written where the policy allows it**, and refused in two ways otherwise. -/
theorem write_cases {a : Arena V} {id : ScopeId} {s : Scope V} (hs : a.scopes[id]? = some s)
    (key : String) (v : V) :
    (s.Allows key ∧ a.write id key v = .ok (a.update id (·.put key (.value v)))) ∨
      (s.holds key = true ∧ s.policy.isFinal = true ∧
        a.write id key v = .error (.overwriteFinal key (a.describe id))) ∨
      (s.holds key = false ∧ s.policy.isClosed = true ∧
        a.write id key v = .error (.addToClosed key (a.describe id))) := by
  simp only [write, scope_eq hs, put_eq key _ hs, Except.map]
  unfold Scope.Allows
  cases s.holds key <;> cases s.policy.isFinal <;> cases s.policy.isClosed <;> simp

theorem write_eq {a : Arena V} {id : ScopeId} {s : Scope V} {key : String}
    (hs : a.scopes[id]? = some s) (h : s.Allows key) (v : V) :
    a.write id key v = .ok (a.update id (·.put key (.value v))) := by
  rcases write_cases hs key v with ⟨-, hw⟩ | ⟨hh, hfinal, -⟩ | ⟨hh, hclosed, -⟩
  · exact hw
  · exact absurd (hfinal.symm.trans (h.1 hh)) (by decide)
  · exact absurd (hclosed.symm.trans (h.2 hh)) (by decide)

/-- **A key leads to the scope that it holds, or one is created under it where the policy allows a
write**, and otherwise it is refused for the policy. -/
theorem enterKey_cases {a : Arena V} {id : ScopeId} {s : Scope V} (hs : a.scopes[id]? = some s)
    (key : String) :
    (∃ child, a.Holds id (.key key) child ∧ a.enterKey id key = .ok (child, a)) ∨
      s.next? (.key key) = none ∧
        (s.Allows key ∧ a.enterKey id key = .ok (a.size, a.sprout id key) ∨
          ¬s.Allows key ∧ ∃ e, (e.code = .scopeFinalOverride ∨ e.code = .scopeClosedAdd) ∧
            a.enterKey id key = .error e) := by
  rw [Scope.allows_iff, Scope.holds, Scope.next?]
  simp only [enterKey, scope_eq hs, addUnder_eq key hs]
  rcases hk : s.find? key with _ | (v | child)
  · refine .inr ⟨rfl, ?_⟩
    cases s.policy.isClosed <;> simp [Fault.code]
  · refine .inr ⟨rfl, ?_⟩
    cases s.policy.isFinal <;> simp [Fault.code]
  · exact .inl ⟨child, holds_key hs hk, rfl⟩

theorem eq_of_write {a b : Arena V} {id : ScopeId} {key : String} {v : V}
    (hw : a.write id key v = .ok b) : b = a.update id (·.put key (.value v)) := by
  cases hs : a.scope id with
  | error e => simp [write, hs] at hw
  | ok s =>
    rcases write_cases (scope_eq_ok_iff.mp hs) key v with ⟨-, he⟩ | ⟨-, -, he⟩ | ⟨-, -, he⟩
    · exact Except.ok.inj (hw.symm.trans he)
    · exact absurd (he.symm.trans hw) (by simp)
    · exact absurd (he.symm.trans hw) (by simp)

theorem eq_of_setPolicy {a b : Arena V} {id : ScopeId} {policy : Policy}
    (hp : a.setPolicy id policy = .ok b) : b = a.update id (·.restrict policy) := by
  cases hs : a.scope id with
  | error e => simp [setPolicy, hs, Except.map] at hp
  | ok s =>
    rw [setPolicy_eq policy (scope_eq_ok_iff.mp hs)] at hp
    exact (Except.ok.inj hp).symm

namespace Sound

variable {a : Arena V}

theorem exists_of_holds (h : a.Sound) {id child : ScopeId} {step : Step}
    (hc : a.Holds id step child) : ∃ s, a.scopes[child]? = some s := by
  obtain ⟨s, hs, -⟩ := h.isChild_of_holds hc
  exact ⟨s, hs⟩

/-! ### Walks that write -/

theorem entering_key {id : ScopeId} {s : Scope V} (hs : a.scopes[id]? = some s)
    (key : String) : a.Entering id (.key key) (a.enter id (.key key)) := by
  rw [enter]
  rcases enterKey_cases hs key with ⟨child, hc, hx⟩ | ⟨hnone, ⟨hallows, hx⟩ | ⟨-, e, hcode, hx⟩⟩
  · rw [hx]
    exact .found (follow_singleton_iff.mpr hc)
  · rw [hx]
    exact .created hs hallows hnone
  · rw [hx]
    refine .refused fun hc => ?_
    rw [hc] at hcode
    exact absurd hcode (by decide)

theorem enterIndex_cases {id : ScopeId} {s : Scope V} (hs : a.scopes[id]? = some s) (i : Nat) :
    (∃ child, a.enterIndex id i = .ok child ∧ a.Holds id (.index i) child) ∨
      ∃ e, a.enterIndex id i = .error e ∧ e.code = .scopeIndexOutOfRange := by
  simp only [enterIndex, scope_eq hs]
  cases hi : s.appended[i]? with
  | some child => exact .inl ⟨child, rfl, holds_index hs hi⟩
  | none => exact .inr ⟨_, rfl, rfl⟩

theorem enterList_cases {id : ScopeId} {s : Scope V} (hs : a.scopes[id]? = some s) (key : String)
    (i : Nat) :
    (∃ list, a.enterList id key i = .ok list ∧ a.Holds id (.key key) list) ∨
      ∃ e, a.enterList id key i = .error e ∧ e.Consistent := by
  simp only [enterList, scope_eq hs]
  cases hk : s.find? key with
  | none => exact .inr ⟨_, rfl, by simp [Fault.Consistent, Fault.code]⟩
  | some entry =>
    cases entry with
    | scope list => exact .inl ⟨list, rfl, holds_key hs hk⟩
    | value v => exact .inr ⟨_, rfl, by simp [Fault.Consistent, Fault.code]⟩

/-- **A walk that writes goes on in one of three ways.** -/
theorem entering (h : a.Sound) {id : ScopeId} {s : Scope V} (hs : a.scopes[id]? = some s)
    (segment : Segment) : a.Entering id segment (a.enter id segment) := by
  cases segment with
  | key key => exact entering_key hs key
  | anonymous => exact .refused (by simp [Fault.Consistent, Fault.code])
  | index list? i =>
    cases list? with
    | none =>
      rw [enter]
      rcases enterIndex_cases hs i with ⟨child, he, hc⟩ | ⟨e, he, hcode⟩
      · rw [he]
        exact .found (follow_singleton_iff.mpr hc)
      · rw [he]
        exact .refused (by simp [Fault.Consistent, hcode])
    | some key =>
      rw [enter]
      rcases enterList_cases hs key i with ⟨list, he, hl⟩ | ⟨e, he, hcons⟩
      · obtain ⟨t, ht⟩ := h.exists_of_holds hl
        rw [he]
        rcases enterIndex_cases ht i with ⟨child, he', hc⟩ | ⟨e, he', hcode⟩
        · simp only [he']
          exact .found (follow_cons_iff.mpr ⟨list, hl, follow_singleton_iff.mpr hc⟩)
        · simp only [he']
          exact .refused (by simp [Fault.Consistent, hcode])
      · rw [he]
        exact .refused hcons

/-! ### Walks that read -/

/-- **A look-up takes its steps or ends.** -/
theorem looking (h : a.Sound) (address : String) :
    ∀ {segments : List Segment} {id : ScopeId}, (∃ s, a.scopes[id]? = some s) →
      a.Looking id segments (a.lookUp address id segments)
  | [], id, ⟨s, hs⟩ => by
    simp only [lookUp, scope_eq hs, Except.map]
    exact .here
  | .key k :: rest, id, ⟨s, hs⟩ => by
    simp only [lookUp, scope_eq hs]
    cases hk : s.find? k with
    | none => exact .nothing
    | some entry =>
      cases entry with
      | value v => exact .value hs hk
      | scope child =>
        have hc := holds_key hs hk
        exact .onward (follow_singleton_iff.mpr hc) (h.looking address (h.exists_of_holds hc))
  | .index none i :: rest, id, ⟨s, hs⟩ => by
    simp only [lookUp, scope_eq hs]
    cases hi : s.appended[i]? with
    | none => exact .nothing
    | some child =>
      have hc := holds_index hs hi
      exact .onward (follow_singleton_iff.mpr hc) (h.looking address (h.exists_of_holds hc))
  | .index (some k) i :: rest, id, ⟨s, hs⟩ => by
    simp only [lookUp, scope_eq hs]
    cases hk : s.find? k with
    | none => exact .nothing
    | some entry =>
      cases entry with
      | value v => exact .refused (by simp [Fault.Consistent, Fault.code])
      | scope list =>
        have hl := holds_key hs hk
        obtain ⟨t, ht⟩ := h.exists_of_holds hl
        simp only [scope_eq ht]
        cases hi : t.appended[i]? with
        | none => exact .nothing
        | some child =>
          have hc := holds_index ht hi
          exact .onward (follow_cons_iff.mpr ⟨list, hl, follow_singleton_iff.mpr hc⟩)
            (h.looking address (h.exists_of_holds hc))
  | .anonymous :: rest, id, _ => by
    rw [lookUp]
    exact .refused (by simp [Fault.Consistent, Fault.code])

end Sound

theorem Looking.follow {a : Arena V} {id target : ScopeId} {segments : List Segment}
    {result : Except Fault (Found V)} (h : a.Looking id segments result)
    (hr : result = .ok (.scope target)) : a.follow id (Address.path segments) = .ok target := by
  induction h with
  | here =>
    obtain rfl := Found.scope.inj (Except.ok.inj hr)
    rfl
  | onward path _ ih => exact follow_append_iff.mpr ⟨_, path, ih hr⟩
  | value _ _ => simp at hr
  | nothing => simp at hr
  | refused _ => simp at hr

theorem Looking.consistent {a : Arena V} {id : ScopeId} {segments : List Segment}
    {result : Except Fault (Found V)} {e : Fault} (h : a.Looking id segments result)
    (hr : result = .error e) : e.Consistent := by
  induction h with
  | here => simp at hr
  | onward _ _ ih => exact ih hr
  | value _ _ => simp at hr
  | nothing => simp at hr
  | refused consistent => exact Except.error.inj hr ▸ consistent

end Arena

end ScopedConfig
