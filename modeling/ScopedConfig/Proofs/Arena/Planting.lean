import ScopedConfig.Proofs.Arena.Finding

/-!
# Planting a value

A value is written at the end of keys. As long as the keys lead along what is there, nothing
changes. The first key that leads to no scope, or else the last key, is decisive: the policy of the
scope reached so far allows a write under it or not, and if it does not, nothing has changed. If it
does, everything behind it is new. A scope that was just created holds nothing and refuses nothing,
so each key that is left is the one entry of a scope created for it, the last of them with the
value, and of the scopes that were there only the one with the decisive key has changed.

Key definitions: `Arena.DecidedAt`, `Arena.plant`, `Arena.Planted`, `Arena.writeAlong`.
Key theorems: `Arena.Sound.exists_decidedAt`, `Arena.planted_plant`,
`Arena.DecidedAt.writeAlong_cases`.
-/

namespace ScopedConfig

variable {V : Type}

namespace Arena

/-! ### The decisive key -/

/-- The entry that decides whether a value may be written at the end of keys. The keys of `front`
lead along scopes that are there to the scope `s`, and they are as many as possible: the next one,
`key`, is the last of all or leads to no scope. -/
structure DecidedAt (a : Arena V) (start : ScopeId) (keys front : List String) (id : ScopeId)
    (s : Scope V) (key : String) (rest : List String) : Prop where
  keys_eq : keys = front ++ key :: rest
  reached : a.follow start (front.map .key) = .ok id
  scope : a.scopes[id]? = some s
  longest : rest = [] ∨ ∀ next, ¬a.Holds id (.key key) next

/-- **Some key is decisive.** The induction is on the keys as long as they lead along what is
there. -/
theorem Sound.exists_decidedAt {a : Arena V} (h : a.Sound) : ∀ (key : String) (rest : List String)
    {start : ScopeId} {s : Scope V}, a.scopes[start]? = some s →
      ∃ front id t last behind, a.DecidedAt start (key :: rest) front id t last behind
  | key, [], start, s, hs => ⟨[], start, s, key, [], rfl, rfl, hs, .inl rfl⟩
  | key, next :: rest, start, s, hs => by
    by_cases hheld : ∃ child, a.Holds start (.key key) child
    · obtain ⟨child, hchild⟩ := hheld
      obtain ⟨t, ht⟩ := h.exists_of_holds hchild
      obtain ⟨front, id, u, last, behind, d⟩ := h.exists_decidedAt next rest ht
      exact ⟨key :: front, id, u, last, behind, congrArg (key :: ·) d.keys_eq,
        follow_cons_iff.mpr ⟨child, hchild, d.reached⟩, d.scope, d.longest⟩
    · exact ⟨[], start, s, key, next :: rest, rfl, rfl, hs, .inr fun n hn => hheld ⟨n, hn⟩⟩

/-! ### What is planted -/

/-- What a key holds in front of others, if the scope for the next one has a number. -/
def plantedEntry (next : ScopeId) (rest : List String) (v : V) : Entry V :=
  if rest = [] then .value v else .scope next

/-- Writes a value at the end of keys that are all made to lead to new scopes. -/
def plant (a : Arena V) (id : ScopeId) (key : String) : List String → V → Arena V
  | [], v => a.update id (·.put key (.value v))
  | next :: rest, v => (a.sprout id key).plant a.size next rest v

/-- What has changed in an arena where a value was planted under a key of one scope. -/
structure Planted (a b : Arena V) (id : ScopeId) (s : Scope V) (key : String) (rest : List String)
    (v : V) : Prop where
  /-- One scope was created for each of the keys behind. -/
  size : b.size = a.size + rest.length
  /-- The other scopes that were there are as they were. -/
  others : ∀ other t, other ≠ id → a.scopes[other]? = some t → b.scopes[other]? = some t
  /-- In this scope the entry under the key was written, and nothing else. -/
  holder : b.scopes[id]? = some (s.put key (plantedEntry a.size rest v))
  /-- A scope that was created was created in the one before, and its key is its only entry. -/
  created : ∀ i (hi : i < rest.length), b.scopes[a.size + i]? =
    some ⟨a.size + i, some (if i = 0 then id else a.size + i - 1), .default,
      [(rest[i], plantedEntry (a.size + i + 1) (rest.drop (i + 1)) v)], []⟩

/-- **Planting changes one entry and creates one scope for each key behind.** -/
theorem planted_plant (v : V) : ∀ (rest : List String) {a : Arena V} {id : ScopeId} {s : Scope V}
    (key : String), a.scopes[id]? = some s → a.Planted (a.plant id key rest v) id s key rest v
  | [], a, id, s, key, hs => by
    refine ⟨size_update .., fun other t hne ht => ?_, getElem?_update_self _ hs, fun i hi => ?_⟩
    · rw [plant, getElem?_update_of_ne _ (Ne.symm hne), ht]
    · exact absurd hi (Nat.not_lt_zero i)
  | next :: rest, a, id, s, key, hs => by
    -- the rest is planted in the scope that was just created, which has the number `a.size`
    have hsize : (a.sprout id key).size = a.size + 1 := by rw [sprout, size_update, size_extend]
    have hkept : ∀ {c : ScopeId} {t : Scope V}, a.scopes[c]? = some t → c ≠ a.size :=
      fun hc => Nat.ne_of_lt (lt_size hc)
    obtain ⟨size, others, holder, created⟩ :=
      planted_plant v rest next (getElem?_sprout_self key hs)
    rw [hsize] at size holder created
    refine ⟨?_, fun other t hne ht => ?_, ?_, fun i hi => ?_⟩
    · rw [plant, size, List.length_cons, Nat.add_assoc, Nat.add_comm 1]
    · refine others other t (hkept ht) ?_
      rw [getElem?_sprout id key ht, if_neg (Ne.symm hne)]
    · refine others id _ (hkept hs) ?_
      rw [getElem?_sprout id key hs, if_pos rfl]
      rfl
    · cases i with
      | zero => exact holder
      | succ i =>
        have hnumber : a.size + (i + 1) = a.size + 1 + i := by omega
        have hparent : (if i = 0 then a.size else a.size + 1 + i - 1) = a.size + 1 + i - 1 := by
          split <;> omega
        have hi' : i < rest.length := Nat.lt_of_succ_lt_succ hi
        have hcreated := created i hi'
        rw [hparent] at hcreated
        rw [plant, hnumber, hcreated, if_neg (Nat.succ_ne_zero i)]
        rfl

/-! ### Walking and writing -/

/-- Walks along segments and writes a value under a key of the scope they lead to. -/
def writeAlong (a : Arena V) (id : ScopeId) (segments : List Segment) (key : String) (v : V) :
    Except Fault Unit × Arena V :=
  match a.walk id segments with
  | (.error e, b) => (.error e, b)
  | (.ok target, b) =>
    match b.write target key v with
    | .error e => (.error e, b)
    | .ok c => (.ok (), c)

variable {a b : Arena V} {id next : ScopeId} {s : Scope V} {key : String}

theorem writeAlong_cons {segment : Segment} (h : a.enter id segment = .ok (next, b))
    (rest : List Segment) (key : String) (v : V) :
    a.writeAlong id (segment :: rest) key v = b.writeAlong next rest key v := by
  simp only [writeAlong, walk, h]

theorem writeAlong_append (segments : List Segment) (last : String) (v : V) :
    ∀ {front : List String} {start : ScopeId}, a.follow start (front.map .key) = .ok id →
      a.writeAlong start (front.map .key ++ segments) last v = a.writeAlong id segments last v
  | [], start, h => by
    obtain rfl := Except.ok.inj h
    rfl
  | key :: front, start, h => by
    obtain ⟨child, hchild, h⟩ := follow_cons_iff.mp h
    have henter : a.enter start (.key key) = .ok (child, a) :=
      enter_of_follow (by simp) (follow_singleton_iff.mpr hchild)
    rw [List.map_cons, List.cons_append, writeAlong_cons henter,
      writeAlong_append segments last v h]

theorem writeAlong_nil_cases (hs : a.scopes[id]? = some s) (key : String) (v : V) :
    (s.Allows key ∧ a.writeAlong id [] key v = (.ok (), a.plant id key [] v)) ∨
      ¬s.Allows key ∧ ∃ e, a.writeAlong id [] key v = (.error e, a) := by
  simp only [writeAlong, walk]
  rcases write_cases hs key v with ⟨hallows, hw⟩ | ⟨hh, hfinal, hw⟩ | ⟨hh, hclosed, hw⟩
  · exact .inl ⟨hallows, by rw [hw]; rfl⟩
  · exact .inr ⟨fun hallows => absurd (hallows.1 hh) (by simp [hfinal]), _, by rw [hw]⟩
  · exact .inr ⟨fun hallows => absurd (hallows.2 hh) (by simp [hclosed]), _, by rw [hw]⟩

/-- **From an empty scope on, nothing is refused.** -/
theorem writeAlong_of_isFresh (v : V) : ∀ (rest : List String) {a : Arena V} {id : ScopeId}
    {s : Scope V} (key : String), a.scopes[id]? = some s → s.IsFresh →
      a.writeAlong id ((key :: rest).dropLast.map .key)
          ((key :: rest).getLast (List.cons_ne_nil key rest)) v =
        (.ok (), a.plant id key rest v)
  | [], _, _, _, key, hs, hf =>
    ((writeAlong_nil_cases hs key v).resolve_right fun h => h.1 (hf.allows key)).2
  | next :: rest, a, id, s, key, hs, hf => by
    have henter : a.enter id (.key key) = .ok (a.size, a.sprout id key) :=
      enterKey_of_isFresh hs hf key
    have ih := writeAlong_of_isFresh v rest next (getElem?_sprout_self key hs)
      (Scope.isFresh_empty _ _)
    rw [List.dropLast_cons_cons, List.map_cons, writeAlong_cons henter, List.getLast_cons_cons, ih]
    rfl

/-- **The decisive key decides**: the value is planted there, or nothing changes. -/
theorem DecidedAt.writeAlong_cases {start : ScopeId} {keys front rest : List String}
    (d : a.DecidedAt start keys front id s key rest) (hne : keys ≠ []) (v : V) :
    (s.Allows key ∧ a.writeAlong start (keys.dropLast.map .key) (keys.getLast hne) v =
        (.ok (), a.plant id key rest v)) ∨
      ¬s.Allows key ∧ ∃ e,
        a.writeAlong start (keys.dropLast.map .key) (keys.getLast hne) v = (.error e, a) := by
  obtain ⟨rfl, reached, scope, longest⟩ := d
  have hlast : (key :: rest) ≠ [] := List.cons_ne_nil key rest
  rw [List.dropLast_append_of_ne_nil hlast, List.map_append, List.getLast_append_of_ne_nil _ hlast,
    writeAlong_append _ _ v reached]
  cases rest with
  | nil => exact writeAlong_nil_cases scope key v
  | cons next rest =>
    -- a scope is created under the key, and then nothing is in the way
    rw [List.dropLast_cons_cons, List.map_cons, List.getLast_cons_cons]
    have hgap : ∀ child, ¬a.Holds id (.key key) child := longest.resolve_left (by simp)
    rcases enterKey_cases scope key with ⟨child, hc, -⟩ | ⟨-, ⟨hallows, hx⟩ | ⟨hnot, e, -, hx⟩⟩
    · exact absurd hc (hgap child)
    · have henter : a.enter id (.key key) = .ok (a.size, a.sprout id key) := hx
      refine .inl ⟨hallows, ?_⟩
      rw [writeAlong_cons henter, writeAlong_of_isFresh v rest next (getElem?_sprout_self key scope)
        (Scope.isFresh_empty _ _)]
      rfl
    · refine .inr ⟨hnot, e, ?_⟩
      simp only [writeAlong, walk, enter, hx]

end Arena

end ScopedConfig
