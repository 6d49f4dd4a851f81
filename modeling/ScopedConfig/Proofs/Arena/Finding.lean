import ScopedConfig.Proofs.Arena.Peeking
import ScopedConfig.Proofs.Arena.Refusing

/-!
# Where values are found

A look-up that finds a value goes from scope to scope, as long as its segments lead to one, and
finds the value under the first key that leads to none. A walk that writes goes the same way and
comes to the same key. If it creates a scope there, it creates it in the place of the value, and
that is the only value that is lost: whatever else it creates, it creates in the new scope. So a
walk that is refused costs the value in its way if an index behind it is out of range, and no other
value at all.

Key definitions: `Arena.Finds`, `Arena.gap?`.
Key theorems: `Arena.lookUp_eq_value_iff`, `Arena.Sound.finds_sprout_iff`,
`Arena.Sound.finds_walk_iff`.
-/

namespace ScopedConfig.Arena

variable {V : Type} {a b : Arena V} {v : V} {holder : ScopeId} {key : String}

/-- Segments lead from a scope to a value under a key of its holder. What stands behind the key is
not looked at. -/
inductive Finds (a : Arena V) (v : V) (holder : ScopeId) (key : String) :
    ScopeId → List Segment → Prop
  | here {s : Scope V} {rest : List Segment} (scope : a.scopes[holder]? = some s)
      (held : s.find? key = some (.value v)) : Finds a v holder key holder (.key key :: rest)
  | onward {id next : ScopeId} {segment : Segment} {rest : List Segment}
      (step : a.next? id segment = some next) (further : Finds a v holder key next rest) :
      Finds a v holder key id (segment :: rest)

/-- The scope and the key at which segments first lead to no scope. -/
def gap? (a : Arena V) (id : ScopeId) : List Segment → Option (ScopeId × String)
  | [] => none
  | segment :: rest =>
    match a.next? id segment with
    | some next => gap? a next rest
    | none =>
      match segment with
      | .key k => some (id, k)
      | _ => none

/-! ### One segment -/

theorem next?_key_eq_none {id : ScopeId} {s : Scope V} {k : String} (hs : a.scopes[id]? = some s)
    (hk : s.next? (.key k) = none) : a.next? id (.key k) = none := by
  rw [next?, hs]
  exact hk

theorem next?_of_value {id : ScopeId} {s : Scope V} {k : String} (hs : a.scopes[id]? = some s)
    (hk : s.find? k = some (.value v)) : a.next? id (.key k) = none :=
  next?_key_eq_none hs (by rw [Scope.next?, hk]; rfl)

theorem next?_of_isFresh {id : ScopeId} {s : Scope V} (hs : a.scopes[id]? = some s)
    (hf : s.IsFresh) : ∀ segment, a.next? id segment = none
  | .key k => by rw [next?, hs, Option.bind_some, hf.find?_eq_none, Option.bind_none]
  | .index none i => by rw [next?, hs, Option.bind_some, hf.appended, List.getElem?_nil]
  | .index (some k) i => by
    rw [next?, hs, Option.bind_some, hf.find?_eq_none, Option.bind_none, Option.bind_none]
  | .anonymous => rfl

theorem gap?_of_next? {id next : ScopeId} {segment : Segment} (rest : List Segment)
    (h : a.next? id segment = some next) : a.gap? id (segment :: rest) = a.gap? next rest := by
  simp only [gap?, h]

theorem gap?_key {id : ScopeId} {k : String} (rest : List Segment)
    (h : a.next? id (.key k) = none) : a.gap? id (.key k :: rest) = some (id, k) := by
  simp only [gap?, h]

theorem lookUp_of_next?_eq_none (address : String) {id : ScopeId} (rest : List Segment) :
    ∀ {segment : Segment}, a.next? id segment = none →
      (a.lookUp address id (segment :: rest) = .ok (.value v) ↔
        ∃ k s, segment = .key k ∧ a.scopes[id]? = some s ∧ s.find? k = some (.value v))
  | .key k, h => by
    cases hs : a.scopes[id]? with
    | none => simp [lookUp, scope, hs]
    | some s =>
      rw [next?, hs, Option.bind_some] at h
      simp only [lookUp, scope_eq hs]
      rcases hk : s.find? k with _ | (u | child)
      · simp [hk]
      · simp [hk]
      · simp [hk, Entry.scope?] at h
  | .index none i, h => by
    cases hs : a.scopes[id]? with
    | none => simp [lookUp, scope, hs]
    | some s =>
      rw [next?, hs, Option.bind_some] at h
      simp [lookUp, scope_eq hs, h]
  | .index (some k) i, h => by
    cases hs : a.scopes[id]? with
    | none => simp [lookUp, scope, hs]
    | some s =>
      rw [next?, hs, Option.bind_some] at h
      simp only [lookUp, scope_eq hs]
      rcases hk : s.find? k with _ | (u | list)
      · simp
      · simp
      · rw [hk, Option.bind_some, Entry.scope?, Option.bind_some] at h
        cases ht : a.scopes[list]? with
        | none => simp [scope, ht]
        | some t =>
          rw [ht, Option.bind_some] at h
          simp [scope_eq ht, h]
  | .anonymous, _ => by simp [lookUp]

/-! ### All segments -/

theorem finds_of_next?_iff {id next : ScopeId} {segment : Segment} {rest : List Segment}
    (h : a.next? id segment = some next) :
    a.Finds v holder key id (segment :: rest) ↔ a.Finds v holder key next rest := by
  refine ⟨fun hf => ?_, .onward h⟩
  cases hf with
  | here scope held => exact absurd ((next?_of_value scope held).symm.trans h) (by simp)
  | onward step further => exact Option.some.inj (step.symm.trans h) ▸ further

/-- **A value is looked up exactly where segments lead to it.** -/
theorem lookUp_eq_value_iff (address : String) : ∀ {segments : List Segment} {id : ScopeId},
    a.lookUp address id segments = .ok (.value v) ↔
      ∃ holder key, a.Finds v holder key id segments
  | [], id => by
    refine ⟨fun h => ?_, fun ⟨holder, key, h⟩ => nomatch h⟩
    cases hs : a.scope id <;> simp [lookUp, hs, Except.map] at h
  | segment :: rest, id => by
    cases hn : a.next? id segment with
    | some next =>
      rw [lookUp_of_next? address rest hn, lookUp_eq_value_iff]
      simp only [finds_of_next?_iff hn]
    | none =>
      rw [lookUp_of_next?_eq_none address rest hn]
      constructor
      · rintro ⟨k, s, rfl, hs, hk⟩
        exact ⟨id, k, .here hs hk⟩
      · rintro ⟨holder, key, h⟩
        cases h with
        | here scope held => exact ⟨key, _, rfl, scope, held⟩
        | onward step _ => exact absurd (hn.symm.trans step) (by simp)

namespace Finds

variable {id : ScopeId} {segments : List Segment}

theorem exists_value (h : a.Finds v holder key id segments) :
    ∃ s, a.scopes[holder]? = some s ∧ s.find? key = some (.value v) := by
  induction h with
  | here scope held => exact ⟨_, scope, held⟩
  | onward _ _ ih => exact ih

/-- A value is found where the segments first lead to no scope. -/
theorem gap?_eq (h : a.Finds v holder key id segments) :
    a.gap? id segments = some (holder, key) := by
  induction h with
  | here scope held => exact gap?_key _ (next?_of_value scope held)
  | onward step _ ih => rw [gap?_of_next? _ step, ih]

theorem not_of_isFresh {s : Scope V} (hs : a.scopes[id]? = some s) (hf : s.IsFresh) :
    ¬a.Finds v holder key id segments := by
  intro h
  cases h with
  | here scope held =>
    obtain rfl := Option.some.inj (hs.symm.trans scope)
    exact absurd ((hf.find?_eq_none key).symm.trans held) (by simp)
  | onward step _ => exact absurd ((next?_of_isFresh hs hf _).symm.trans step) (by simp)

end Finds

/-! ### A scope that is created -/

theorem getElem?_sprout (id : ScopeId) {c : ScopeId} {t : Scope V} (k : String)
    (hc : a.scopes[c]? = some t) :
    (a.sprout id k).scopes[c]? = some (if id = c then t.put k (.scope a.size) else t) := by
  have hx : (a.extend id).scopes[c]? = some t := getElem?_extend_of_some id hc
  by_cases he : id = c
  · subst he
    rw [sprout, getElem?_update_self _ hx, if_pos rfl]
  · rw [sprout, getElem?_update_of_ne _ he, hx, if_neg he]

variable {id c : ScopeId} {s t : Scope V} {k : String} {way : List Segment}

/-- **Segments lead where they led, and the new scope is under its key.** The new scope holds
nothing, so no segment goes through it. -/
theorem next?_sprout_iff (hs : a.scopes[id]? = some s) (hk : s.next? (.key k) = none)
    {n : ScopeId} : ∀ {segment : Segment},
      (a.sprout id k).next? c segment = some n ↔
        a.next? c segment = some n ∨ c = id ∧ segment = .key k ∧ n = a.size
  | .key k' => by
    rw [next?, peekKey_eq_some_iff, next?, peekKey_eq_some_iff]
    constructor
    · intro hh
      rcases of_holds_sprout hs hh with hh | ⟨hc, hstep, hn⟩
      · exact .inl hh
      · exact .inr ⟨hc, by rw [Step.key.inj hstep], hn⟩
    · rintro (hh | ⟨rfl, hseg, rfl⟩)
      · exact holds_sprout hs hk hh
      · rw [Segment.key.inj hseg]
        exact holds_sprout_self k hs
  | .index none i => by
    rw [next?, peekIndex_eq_some_iff, next?, peekIndex_eq_some_iff]
    constructor
    · intro hh
      rcases of_holds_sprout hs hh with hh | ⟨-, hstep, -⟩
      · exact .inl hh
      · exact absurd hstep (by simp)
    · rintro (hh | ⟨-, hseg, -⟩)
      · exact holds_sprout hs hk hh
      · exact absurd hseg (by simp)
  | .index (some k') i => by
    rw [next?, Option.bind_eq_some_iff, next?, Option.bind_eq_some_iff]
    simp only [peekKey_eq_some_iff, peekIndex_eq_some_iff]
    constructor
    · rintro ⟨list, hl, hi⟩
      rcases of_holds_sprout hs hi with hi | ⟨-, hstep, -⟩
      · rcases of_holds_sprout hs hl with hl | ⟨-, -, rfl⟩
        · exact .inl ⟨list, hl, hi⟩
        · obtain ⟨u, hu, -⟩ := hi
          exact absurd (lt_size hu) (Nat.lt_irrefl a.size)
      · exact absurd hstep (by simp)
    · rintro (⟨list, hl, hi⟩ | ⟨-, hseg, -⟩)
      · exact ⟨list, holds_sprout hs hk hl, holds_sprout hs hk hi⟩
      · exact absurd hseg (by simp)
  | .anonymous => by simp [next?]

namespace Sound

theorem exists_of_next? (h : a.Sound) {n : ScopeId} {segment : Segment}
    (hc : a.scopes[c]? = some t) (hn : a.next? c segment = some n) :
    ∃ u, a.scopes[n]? = some u :=
  h.exists_of_follow ⟨t, hc⟩ (next?_eq_some_iff.mp hn).2

/-- **A scope that is created costs what stands under its key, and no other value.** -/
theorem finds_sprout_iff (h : a.Sound) (hs : a.scopes[id]? = some s)
    (hk : s.next? (.key k) = none) (hc : a.scopes[c]? = some t) :
    (a.sprout id k).Finds v holder key c way ↔
      a.Finds v holder key c way ∧ (holder, key) ≠ (id, k) := by
  constructor
  · intro hf
    induction hf generalizing t with
    | @here u rest scope held =>
      rw [getElem?_sprout id k hc] at scope
      obtain rfl := Option.some.inj scope
      by_cases he : id = holder
      · rw [if_pos he, Scope.find?_put] at held
        split at held
        · simp at held
        · rename_i hne
          exact ⟨.here hc held, fun hp => hne (Prod.mk.inj hp).2⟩
      · rw [if_neg he] at held
        exact ⟨.here hc held, fun hp => he (Prod.mk.inj hp).1.symm⟩
    | @onward c n segment rest step further ih =>
      rcases (next?_sprout_iff hs hk).mp step with hn | ⟨-, -, rfl⟩
      · obtain ⟨u, hu⟩ := h.exists_of_next? hc hn
        exact (ih hu).imp_left (.onward hn)
      · exact absurd further (Finds.not_of_isFresh (getElem?_sprout_self k hs)
          (Scope.isFresh_empty _ _))
  · rintro ⟨hf, hne⟩
    induction hf generalizing t with
    | @here u rest scope held =>
      refine .here (getElem?_sprout id k scope) ?_
      by_cases he : id = holder
      · subst he
        rw [if_pos rfl, Scope.find?_put, if_neg fun hkey : key = k => hne (by rw [hkey]), held]
      · rw [if_neg he, held]
    | @onward c n segment rest step further ih =>
      obtain ⟨u, hu⟩ := h.exists_of_next? hc step
      exact .onward ((next?_sprout_iff hs hk).mpr (.inl step)) (ih hu)

/-! ### A walk that is refused -/

/-- A walk from an empty scope costs no value, and it is refused at an index. -/
theorem walk_of_isFresh : ∀ {segments : List Segment} {a : Arena V} {id : ScopeId} {s : Scope V},
    a.Sound → a.scopes[id]? = some s → s.IsFresh → .anonymous ∉ segments →
      (∀ e, (a.walk id segments).1 = .error e → e.code = .scopeIndexOutOfRange) ∧
      ∀ {c : ScopeId} {t : Scope V}, a.scopes[c]? = some t →
        ((a.walk id segments).2.Finds v holder key c way ↔ a.Finds v holder key c way)
  | [], _, _, _, _, _, _, _ => ⟨fun e he => absurd he (by simp [walk]), fun _ => Iff.rfl⟩
  | .key k :: rest, a, id, s, h, hs, hf, hne => by
    have hk : s.next? (.key k) = none := by rw [Scope.next?, hf.find?_eq_none]; rfl
    obtain ⟨hcode, hfinds⟩ := walk_of_isFresh (h.sprout hs k) (getElem?_sprout_self k hs)
      (Scope.isFresh_empty _ _) fun hm => hne (List.mem_cons_of_mem _ hm)
    simp only [walk, enter, enterKey_of_isFresh hs hf k]
    refine ⟨hcode, fun {c t} hc => ?_⟩
    rw [hfinds (getElem?_sprout id k hc), h.finds_sprout_iff hs hk hc, and_iff_left_of_imp]
    -- a value that is found is held, but not by the empty scope
    rintro hfound hp
    obtain ⟨u, hu, hheld⟩ := hfound.exists_value
    obtain ⟨rfl, rfl⟩ := Prod.mk.inj hp
    obtain rfl := Option.some.inj (hs.symm.trans hu)
    exact absurd ((hf.find?_eq_none key).symm.trans hheld) (by simp)
  | .index none i :: rest, a, id, s, h, hs, hf, _ => by
    simp only [walk, enter, enterIndex, scope_eq hs, hf.appended, List.getElem?_nil, Except.map]
    exact ⟨fun e he => Except.error.inj he ▸ rfl, fun _ => trivial⟩
  | .index (some k) i :: rest, a, id, s, h, hs, hf, _ => by
    simp only [walk, enter, enterList, scope_eq hs, hf.find?_eq_none]
    exact ⟨fun e he => Except.error.inj he ▸ rfl, fun _ => trivial⟩
  | .anonymous :: rest, _, _, _, _, _, _, hne => absurd (List.mem_cons_self ..) hne

theorem gap?_of_refused (hs : a.scopes[id]? = some s) {segment : Segment} {e : Fault}
    (he : a.enter id segment = .error e) (hcode : e.code = .scopeIndexOutOfRange)
    (rest : List Segment) : a.gap? id (segment :: rest) = none := by
  cases hn : a.next? id segment with
  | some next =>
    obtain ⟨hne, path⟩ := next?_eq_some_iff.mp hn
    rw [enter_of_follow hne path] at he
    simp at he
  | none =>
    cases segment with
    | key k =>
      exfalso
      rw [enter] at he
      rcases enterKey_cases hs k with ⟨child, -, hx⟩ | ⟨-, ⟨-, hx⟩ | ⟨-, e', hpolicy, hx⟩⟩
      · simp [hx] at he
      · simp [hx] at he
      · obtain rfl := Except.error.inj (hx.symm.trans he)
        rw [hcode] at hpolicy
        exact absurd hpolicy (by decide)
    | index list? i => simp only [gap?, hn]
    | anonymous => simp only [gap?, hn]

/-- **A walk that is refused costs the value in its way, if an index behind it is out of range, and
no other value.** The induction is on the segments as long as they lead along what is there. -/
theorem finds_walk_iff (h : a.Sound) : ∀ {segments : List Segment} {id : ScopeId} {s : Scope V},
    a.scopes[id]? = some s → .anonymous ∉ segments → ∀ {e : Fault},
      a.walk id segments = (.error e, b) → ∀ {c : ScopeId} {t : Scope V}, a.scopes[c]? = some t →
        (b.Finds v holder key c way ↔ a.Finds v holder key c way ∧
          ¬(e.code = .scopeIndexOutOfRange ∧ a.gap? id segments = some (holder, key)))
  | [], _, _, _, _, _, hw, _, _, _ => by simp [walk] at hw
  | segment :: rest, id, s, hs, hne, e, hw, c, t, hc => by
    have hrest : .anonymous ∉ rest := fun hm => hne (List.mem_cons_of_mem _ hm)
    have hseg : segment ≠ .anonymous := fun hm => hne (hm ▸ List.mem_cons_self ..)
    have hx := h.entering hs segment
    have hrefused : ∀ e, a.enter id segment = .error e → e.code = .scopeIndexOutOfRange →
        a.gap? id (segment :: rest) = none := fun e he hcode => gap?_of_refused hs he hcode rest
    rw [walk] at hw
    generalize a.enter id segment = x at hx hw hrefused
    cases hx with
    | found path =>
      have hn : a.next? id segment = some _ := next?_eq_some_iff.mpr ⟨hseg, path⟩
      obtain ⟨u, hu⟩ := h.exists_of_next? hs hn
      rw [gap?_of_next? rest hn]
      exact h.finds_walk_iff hu hrest hw hc
    | @created u k scope allowed noScope =>
      obtain ⟨hcode, hfinds⟩ := @walk_of_isFresh V v holder key way _ _ _ _ (h.sprout scope k)
        (getElem?_sprout_self k scope) (Scope.isFresh_empty _ _) hrest
      rw [show (a.sprout id k).walk a.size rest = (.error e, b) from hw] at hcode hfinds
      rw [hfinds (getElem?_sprout id k hc), h.finds_sprout_iff scope noScope hc,
        gap?_key rest (next?_key_eq_none scope noScope), hcode e rfl]
      simp [eq_comm]
    | refused consistent =>
      obtain ⟨he, rfl⟩ := Prod.mk.inj hw
      obtain rfl := Except.error.inj he
      refine (and_iff_left ?_).symm
      rintro ⟨hcode, hgap⟩
      rw [hrefused _ rfl hcode] at hgap
      simp at hgap

end Sound

end ScopedConfig.Arena
