import ScopedConfig.Proofs.Arena.Finding
import ScopedConfig.Proofs.Tree.Visiting

/-!
# Walks that record their steps

Four ways lead along segments: a walk that writes, a walk that peeks, a look-up, and the path of
steps that a walk records for the cursor. In a sound arena they never disagree. A look-up ends in a
scope exactly if the peek does, and a walk that writes ends where the steps it has recorded lead in
the arena that it leaves behind, whatever it has created on the way.

What is written into a scope is not on the way to it, because a path goes from smaller numbers to
greater ones. So the way that a walk has taken is still there when a value is written at its end.

Key definitions: `Arena.record`.
Key theorems: `Arena.record_eq`, `Arena.Sound.lookUp_eq_scope_iff`, `Arena.Sound.of_walk`,
`Arena.Sound.lookUp_of_write`.
-/

namespace ScopedConfig.Arena

variable {V : Type} {a b : Arena V} {id target : ScopeId} {segments : List Segment}

/-- A walk that writes and records the steps it takes, behind those that were taken before. A key
with an index is one segment and two steps. -/
def record (a : Arena V) (id : ScopeId) (taken : List Step) :
    List Segment → Except Fault (ScopeId × List Step) × Arena V
  | [] => (.ok (id, taken), a)
  | segment :: rest =>
    match a.enter id segment with
    | .error e => (.error e, a)
    | .ok (next, a) => record a next (taken ++ segment.steps) rest

/-- **The steps that a walk records are the path of its segments.** -/
theorem record_eq : ∀ (segments : List Segment) (a : Arena V) (id : ScopeId) (taken : List Step),
    a.record id taken segments =
      ((a.walk id segments).1.map fun target => (target, taken ++ Address.path segments),
        (a.walk id segments).2)
  | [], a, id, taken => by
    rw [Address.path, List.flatMap_nil, List.append_nil]
    rfl
  | segment :: rest, a, id, taken => by
    rw [record, walk, path_cons, ← List.append_assoc]
    cases a.enter id segment with
    | error e => rfl
    | ok p => exact record_eq rest p.2 p.1 (taken ++ segment.steps)

theorem record_of_walk (h : a.walk id segments = (.ok target, b)) (taken : List Step) :
    a.record id taken segments = (.ok (target, taken ++ Address.path segments), b) := by
  rw [record_eq, h]
  rfl

theorem marker_not_mem_of_walk : ∀ {segments : List Segment} {a : Arena V} {id : ScopeId},
    a.walk id segments = (.ok target, b) → .anonymous ∉ segments
  | [], _, _, _ => List.not_mem_nil
  | segment :: rest, a, id, h => by
    rw [walk] at h
    cases he : a.enter id segment with
    | error e => simp [he] at h
    | ok p =>
      rw [he] at h
      have hne : segment ≠ .anonymous := by
        rintro rfl
        simp [enter] at he
      rw [List.mem_cons, not_or]
      exact ⟨Ne.symm hne, marker_not_mem_of_walk h⟩

theorem lookUp_append (address : String) (rest : List Segment) :
    ∀ {segments : List Segment} {id : ScopeId}, a.peek? id segments = some target →
      a.lookUp address id (segments ++ rest) = a.lookUp address target rest
  | [], _, h => by
    obtain rfl := Option.some.inj h
    rfl
  | segment :: segments, id, h => by
    obtain ⟨next, hn, h⟩ := Option.bind_eq_some_iff.mp h
    rw [List.cons_append, lookUp_of_next? address _ hn, lookUp_append address rest h]

namespace Sound

/-! ### Reading -/

/-- **A look-up ends in a scope exactly if the peek does.** -/
theorem lookUp_eq_scope_iff (h : a.Sound) (address : String) :
    ∀ {segments : List Segment} {id : ScopeId}, (∃ s, a.scopes[id]? = some s) →
      (a.lookUp address id segments = .ok (.scope target) ↔ a.peek? id segments = some target)
  | [], id, ⟨s, hs⟩ => by simp [lookUp, scope_eq hs, Except.map, peek?]
  | segment :: rest, id, hid => by
    cases hn : a.next? id segment with
    | some next =>
      obtain ⟨s, hs⟩ := hid
      rw [lookUp_of_next? address rest hn, peek?, hn, Option.bind_some]
      exact h.lookUp_eq_scope_iff address (h.exists_of_next? hs hn)
    | none =>
      rw [peek?, hn, Option.bind_none]
      refine iff_of_false (fun hl => ?_) (by simp)
      have hne : segment ≠ .anonymous := by
        rintro rfl
        simp [lookUp] at hl
      -- the look-up took the steps of the segment, so the segment leads on
      have hpath := (h.looking address hid).follow hl
      rw [path_cons, follow_append_iff] at hpath
      obtain ⟨next, hnext, -⟩ := hpath
      rw [next?_eq_some_iff.mpr ⟨hne, hnext⟩] at hn
      exact absurd hn (by simp)

/-! ### Walking -/

/-- A walk from the root leaves a sound arena, in which the path of its segments leads to its
end. -/
theorem of_walk (h : a.Sound) (hw : a.walk .root segments = (.ok target, b)) :
    b.Sound ∧ b.resolve (Address.path segments) = .ok target := by
  rcases h.visit_root Tree.stay segments with ⟨e, b', hwalk, -⟩ | ⟨target', b', hwalk, hb, hp, -⟩
  · exact absurd (hwalk.symm.trans hw) (by simp)
  · obtain ⟨ht, rfl⟩ := Prod.mk.inj (hwalk.symm.trans hw)
    obtain rfl := Except.ok.inj ht
    exact ⟨hb, hp⟩

theorem peek?_of_walk (h : a.Sound) (hw : a.walk .root segments = (.ok target, b)) :
    b.peek? .root segments = some target :=
  peek?_eq_some_iff.mpr ⟨marker_not_mem_of_walk hw, (h.of_walk hw).2⟩

/-! ### Writing at the end of a walk -/

/-- **What is written into a scope is not on the way to it.** -/
theorem follow_update (h : a.Sound) (f : Scope V → Scope V) :
    ∀ {path : List Step} {start : ScopeId},
    a.follow start path = .ok id → (a.update id f).follow start path = .ok id
  | [], _, hp => hp
  | _ :: _, start, hp => by
    obtain ⟨next, hn, hp⟩ := follow_cons_iff.mp hp
    have hlt : start < id := Nat.lt_of_lt_of_le (h.lt_of_holds hn) (h.follow_le hp)
    exact follow_cons_iff.mpr
      ⟨next, (holds_update_of_ne f (Nat.ne_of_gt hlt)).mpr hn, h.follow_update f hp⟩

/-- **A value that was written at the end of a walk is looked up there.** -/
theorem lookUp_of_write (h : a.Sound) {c : Arena V} {key : String} {v : V}
    (hw : a.walk .root segments = (.ok target, b)) (hv : b.write target key v = .ok c)
    (address : String) : c.lookUp address .root (segments ++ [.key key]) = .ok (.value v) := by
  obtain ⟨hb, hp⟩ := h.of_walk hw
  obtain ⟨s, hs⟩ := hb.exists_of_resolve hp
  obtain rfl := eq_of_write hv
  have hpeek : (b.update target (·.put key (.value v))).peek? .root segments = some target :=
    peek?_eq_some_iff.mpr ⟨marker_not_mem_of_walk hw, hb.follow_update _ hp⟩
  have hkey : (s.put key (.value v)).find? key = some (.value v) := by
    rw [Scope.find?_put, if_pos rfl]
  rw [lookUp_append address [.key key] hpeek]
  simp only [lookUp, scope_eq (getElem?_update_self _ hs), hkey]

end Sound

end ScopedConfig.Arena
