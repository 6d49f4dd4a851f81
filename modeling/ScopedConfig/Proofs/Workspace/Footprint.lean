import ScopedConfig.Proofs.Arena.Planting
import ScopedConfig.Proofs.Workspace.Leaving

/-!
# The footprint of an assignment

An assignment at the end of keys leaves the open scope and then depends on one entry: the one under
the first key that leads to no scope, or under the last key. If the policy of the scope with this
entry refuses the write, only the open scope was left. Otherwise this entry is the only one that
changes in the scopes that were there, and the scopes that are created are one for each key between
the decisive one and the value.

Key theorems: `Workspace.assign_eq_writeAlong`, `Workspace.run_assign_footprint`.
-/

namespace ScopedConfig

theorem Address.target_of_keys {a : Address} {keys : List String} (h : a.segments = keys.map .key)
    (hne : keys ≠ []) : a.target = .ok (keys.dropLast.map .key, keys.getLast hne) := by
  rw [target, h, List.getLast?_map, List.getLast?_eq_some_getLast hne, Option.map_some,
    List.map_dropLast]

namespace Workspace

variable {V : Type} {w t : Workspace V}

/-- An assignment at the end of keys leaves the open scope, walks along the keys and writes. -/
theorem assign_eq_writeAlong (hw : w.popAnonymous = .ok t) {name : String} {address : Address}
    (ha : w.address name = .ok address) {keys : List String}
    (hkeys : address.segments = keys.map .key) (hne : keys ≠ []) (v : V) :
    let r := t.arena.writeAlong .root (keys.dropLast.map .key) (keys.getLast hne) v
    w.assign name v = (r.1, { t with arena := r.2 }) := by
  simp only [assign, ha, Except.bind, Address.target_of_keys hkeys hne, hw, writeAt,
    Arena.writeAlong]
  rcases t.arena.walk .root (keys.dropLast.map .key) with ⟨_ | id, b⟩
  · rfl
  · cases hwrite : b.write id (keys.getLast hne) v <;> simp only [hwrite]

/-- **One entry decides on an assignment, and it is the only one that changes.** After every run,
let a name be read as keys. The open scope can be left, and then some key is decisive. The
assignment succeeds exactly if the decisive key holds nothing and its scope is open, or it holds
something and its scope is not final. If it fails, the open scope was left and nothing else has
changed. If it succeeds, the value was planted at the decisive key. -/
theorem run_assign_footprint (policy : Policy) (remembered : List String)
    (ops : List (Operation V)) (name : String) (v : V) :
    let w := (ofPolicy policy remembered).run ops
    let r := w.apply (.assign name v)
    ∀ (address : Address) (keys : List String), w.address name = .ok address →
      address.segments = keys.map .key → keys ≠ [] →
    ∃ t, w.popAnonymous = .ok t ∧
      (∃ front id s key rest, t.arena.DecidedAt .root keys front id s key rest) ∧
      ∀ front id s key rest, t.arena.DecidedAt .root keys front id s key rest →
        (r.1 = .ok .done ↔ s.holds key = false ∧ s.policy.isClosed = false ∨
          s.holds key = true ∧ s.policy.isFinal = false) ∧
        (∀ e, r.1 = .error e → r.2 = t) ∧
        (r.1 = .ok .done → ∃ b, r.2 = { t with arena := b } ∧
          t.arena.Planted b id s key rest v) := by
  intro w r address keys ha hkeys hne
  have h : w.Sound := sound_run policy remembered ops
  obtain ⟨t, hw, -⟩ := h.exists_popAnonymous
  obtain ⟨h', -, -⟩ := h.popAnonymous_again hw
  have hr : r = apply.reply (fun _ => .done) (w.assign name v) := rfl
  rw [assign_eq_writeAlong hw ha hkeys hne v] at hr
  refine ⟨t, hw, ?_, fun front id s key rest d => ?_⟩
  · obtain ⟨root, hroot⟩ := h'.arena.root
    obtain ⟨first, others, rfl⟩ := List.exists_cons_of_ne_nil hne
    exact h'.arena.exists_decidedAt first others hroot
  · rw [← Scope.allows_iff]
    rcases d.writeAlong_cases hne v with ⟨hallows, hx⟩ | ⟨hnot, e, hx⟩
    · have hdone : r = (.ok .done, { t with arena := t.arena.plant id key rest v }) := by
        rw [hr, hx]
        rfl
      have hplanted := Arena.planted_plant v rest key d.scope
      rw [hdone]
      exact ⟨iff_of_true rfl hallows, fun e he => absurd he (by simp), fun _ => ⟨_, rfl, hplanted⟩⟩
    · have hfailed : r = (.error e, t) := by
        rw [hr, hx]
        rfl
      rw [hfailed]
      exact ⟨iff_of_false (by simp) hnot, fun _ _ => rfl, fun hok => absurd hok (by simp)⟩

/-- An entry is open under `list`, and a value is planted two scopes below `a`. -/
theorem assign_footprint_below :
    let w : Workspace Nat := (ofPolicy .default []).run [.createNamed "a", .createNamed "list."]
    let r := w.apply (.assign "a.b.c.d" 1)
    r.1 = .ok .done ∧ ∃ t b s, w.popAnonymous = .ok t ∧
      t.arena.DecidedAt .root ["a", "b", "c", "d"] ["a"] 1 s "b" ["c", "d"] ∧
        r.2 = { t with arena := b } ∧ t.arena.Planted b 1 s "b" ["c", "d"] 1 := by
  intro w r
  obtain ⟨t, hw, -, hdecided⟩ := run_assign_footprint .default []
    [.createNamed "a", .createNamed "list."] "a.b.c.d" 1
    ⟨"a.b.c.d", [.key "a", .key "b", .key "c", .key "d"]⟩ ["a", "b", "c", "d"] rfl rfl (by simp)
  have hpop : w.popAnonymous = .ok (w.apply .pop).2 := rfl
  obtain rfl := Except.ok.inj (hpop.symm.trans hw)
  obtain ⟨s, hscope, hholds, hopen⟩ : ∃ s, (w.apply .pop).2.arena.scopes[1]? = some s ∧
      s.holds "b" = false ∧ s.policy.isClosed = false := ⟨_, rfl, rfl, rfl⟩
  have hnone : (w.apply .pop).2.arena.next? 1 (.key "b") = none := rfl
  have hdecides : (w.apply .pop).2.arena.DecidedAt .root ["a", "b", "c", "d"] ["a"] 1 s "b"
      ["c", "d"] := by
    refine ⟨rfl, rfl, hscope, .inr fun next hnext => ?_⟩
    exact absurd (hnone.symm.trans (Arena.peekKey_eq_some_iff.mpr hnext)) (by simp)
  obtain ⟨hgate, -, hplanted⟩ := hdecided _ _ _ _ _ hdecides
  have hdone : r.1 = .ok .done := hgate.mpr (.inl ⟨hholds, hopen⟩)
  obtain ⟨b, hb, hp⟩ := hplanted hdone
  exact ⟨hdone, (w.apply .pop).2, b, s, hw, hdecides, hb, hp⟩

end Workspace

end ScopedConfig
