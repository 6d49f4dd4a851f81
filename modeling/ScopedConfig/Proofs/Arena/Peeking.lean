import ScopedConfig.Proofs.Arena.Walking

/-!
# Walks along what is there

A walk that peeks, a path, a walk that writes and a look-up agree wherever everything on the way is
there: the segments are peeked through exactly if their path is followed, then the walk that writes
goes the same way and changes nothing, and the look-up finds the scope at its end.

Key theorems: `Arena.peek?_eq_some_iff`, `Arena.walk_of_follow`, `Arena.lookUp_of_follow`.
-/

namespace ScopedConfig.Arena

variable {V : Type} {a : Arena V}

/-! ### One segment -/

theorem holds_key_iff {id child : ScopeId} {key : String} :
    a.Holds id (.key key) child ↔
      ∃ s, a.scopes[id]? = some s ∧ s.find? key = some (.scope child) := by
  refine ⟨fun ⟨s, hs, hn⟩ => ⟨s, hs, ?_⟩, fun ⟨s, hs, hk⟩ => holds_key hs hk⟩
  obtain ⟨entry, hk, he⟩ := Option.bind_eq_some_iff.mp hn
  cases entry with
  | value v => exact absurd he (by simp [Entry.scope?])
  | scope id =>
    obtain rfl := Option.some.inj he
    exact hk

theorem peekKey_eq_some_iff {id child : ScopeId} {key : String} :
    (a.scopes[id]?.bind fun s => (s.find? key).bind Entry.scope?) = some child ↔
      a.Holds id (.key key) child :=
  Option.bind_eq_some_iff

theorem peekIndex_eq_some_iff {id child : ScopeId} {i : Nat} :
    (a.scopes[id]?.bind fun s => s.appended[i]?) = some child ↔ a.Holds id (.index i) child :=
  Option.bind_eq_some_iff

/-- **A segment is peeked through exactly if its steps are followed.** -/
theorem next?_eq_some_iff {id next : ScopeId} : ∀ {segment : Segment},
    a.next? id segment = some next ↔
      segment ≠ .anonymous ∧ a.follow id segment.steps = .ok next
  | .key key => by
    rw [next?, peekKey_eq_some_iff, Segment.steps, follow_singleton_iff]
    simp
  | .index none i => by
    rw [next?, peekIndex_eq_some_iff, Segment.steps, follow_singleton_iff]
    simp
  | .index (some key) i => by
    rw [next?, Segment.steps, follow_cons_iff, Option.bind_eq_some_iff]
    simp only [peekKey_eq_some_iff, peekIndex_eq_some_iff, follow_singleton_iff]
    simp
  | .anonymous => by simp [next?]

theorem enter_of_follow {id next : ScopeId} : ∀ {segment : Segment}, segment ≠ .anonymous →
    a.follow id segment.steps = .ok next → a.enter id segment = .ok (next, a)
  | .key key, _, h => by
    obtain ⟨s, hs, hk⟩ := holds_key_iff.mp (follow_singleton_iff.mp h)
    simp only [enter, enterKey, scope_eq hs, hk]
  | .index none i, _, h => by
    obtain ⟨s, hs, hi⟩ := follow_singleton_iff.mp h
    rw [Scope.next?] at hi
    simp only [enter, enterIndex, scope_eq hs, hi, Except.map]
  | .index (some key) i, _, h => by
    obtain ⟨list, hl, h⟩ := follow_cons_iff.mp h
    obtain ⟨s, hs, hk⟩ := holds_key_iff.mp hl
    obtain ⟨t, ht, hi⟩ := follow_singleton_iff.mp h
    rw [Scope.next?] at hi
    simp only [enter, enterList, scope_eq hs, hk, enterIndex, scope_eq ht, hi, Except.map]
  | .anonymous, hne, _ => absurd rfl hne

/-! ### All segments -/

theorem path_cons (segment : Segment) (rest : List Segment) :
    Address.path (segment :: rest) = segment.steps ++ Address.path rest :=
  List.flatMap_cons

/-- **Segments are peeked through exactly if their path is followed.** -/
theorem peek?_eq_some_iff {target : ScopeId} : ∀ {segments : List Segment} {id : ScopeId},
    a.peek? id segments = some target ↔
      .anonymous ∉ segments ∧ a.follow id (Address.path segments) = .ok target
  | [], id => by simp [peek?, Address.path, follow]
  | segment :: rest, id => by
    rw [peek?, Option.bind_eq_some_iff, path_cons, follow_append_iff]
    simp only [next?_eq_some_iff, peek?_eq_some_iff, List.mem_cons, not_or]
    constructor
    · rintro ⟨next, ⟨hne, hn⟩, hrest, h⟩
      exact ⟨⟨Ne.symm hne, hrest⟩, next, hn, h⟩
    · rintro ⟨⟨hne, hrest⟩, next, hn, h⟩
      exact ⟨next, ⟨Ne.symm hne, hn⟩, hrest, h⟩

/-- **A walk along what is there changes nothing.** -/
theorem walk_of_follow {target : ScopeId} : ∀ {segments : List Segment} {id : ScopeId},
    .anonymous ∉ segments → a.follow id (Address.path segments) = .ok target →
      a.walk id segments = (.ok target, a)
  | [], _, _, h => by
    obtain rfl := Except.ok.inj h
    rfl
  | segment :: rest, id, hne, h => by
    rw [path_cons, follow_append_iff] at h
    obtain ⟨next, hn, h⟩ := h
    obtain ⟨hs, hrest⟩ := not_or.mp fun hm => hne (List.mem_cons.mpr hm)
    simp only [walk, enter_of_follow (Ne.symm hs) hn]
    exact walk_of_follow hrest h

/-! ### Look-ups -/

theorem lookUp_of_next? (address : String) {id next : ScopeId} (rest : List Segment) :
    ∀ {segment : Segment}, a.next? id segment = some next →
      a.lookUp address id (segment :: rest) = a.lookUp address next rest
  | .key k, h => by
    obtain ⟨s, hs, hk⟩ := holds_key_iff.mp (peekKey_eq_some_iff.mp h)
    simp only [lookUp, scope_eq hs, hk]
  | .index none i, h => by
    obtain ⟨s, hs, hi⟩ := Option.bind_eq_some_iff.mp h
    simp only [lookUp, scope_eq hs, hi]
  | .index (some k) i, h => by
    obtain ⟨list, hl, hi⟩ := Option.bind_eq_some_iff.mp h
    obtain ⟨s, hs, hk⟩ := holds_key_iff.mp (peekKey_eq_some_iff.mp hl)
    obtain ⟨t, ht, hi⟩ := Option.bind_eq_some_iff.mp hi
    simp only [lookUp, scope_eq hs, hk, scope_eq ht, hi]
  | .anonymous, h => by simp [next?] at h

/-- **A look-up along what is there finds the scope at its end.** -/
theorem lookUp_of_follow (address : String) {target : ScopeId}
    (ht : ∃ s, a.scopes[target]? = some s) :
    ∀ {segments : List Segment} {id : ScopeId}, .anonymous ∉ segments →
      a.follow id (Address.path segments) = .ok target →
        a.lookUp address id segments = .ok (.scope target)
  | [], id, _, h => by
    obtain ⟨s, hs⟩ := ht
    obtain rfl := Except.ok.inj h
    simp only [lookUp, scope_eq hs, Except.map]
  | segment :: rest, id, hne, h => by
    rw [path_cons, follow_append_iff] at h
    obtain ⟨next, hn, h⟩ := h
    obtain ⟨hs, hrest⟩ := not_or.mp fun hm => hne (List.mem_cons.mpr hm)
    rw [lookUp_of_next? address rest (next?_eq_some_iff.mpr ⟨Ne.symm hs, hn⟩)]
    exact lookUp_of_follow address ht hrest h

end ScopedConfig.Arena
