import ScopedConfig.Proofs.Address.Reading
import ScopedConfig.Proofs.Arena.Recording
import ScopedConfig.Proofs.Workspace.Leaving

/-!
# Reading what was written

After every run, the ways along segments agree: a peek and a look-up end in the same scope or in
none, and where they do, a walk that writes comes to it too and changes nothing. A walk that creates
scopes has made way for the others: in the arena it leaves behind, the peek, the look-up and the
steps it has recorded lead to its end.

An assignment that succeeds has written its value at the end of such a walk. The name stands for the
same segments afterwards, because an assignment remembers none, so a look-up takes the way of the
walk and finds the value.

Key theorems: `Workspace.run_walks_agree`, `Workspace.exists_of_assign`,
`Workspace.run_assigned_looked_up`.
-/

namespace ScopedConfig.Workspace

variable {V : Type} {w u : Workspace V}

/-- **The ways along segments agree.** After every run, and for all segments: a peek leads to a
scope exactly if the look-up ends in it, and then the walk that writes ends in it too, changes
nothing, and records steps that lead to it. Whenever the walk that writes comes to an end, in the
arena that it leaves behind the peek, the look-up and the steps it has recorded lead to this end.
The steps it records are the path of the segments. -/
theorem run_walks_agree (policy : Policy) (remembered : List String) (ops : List (Operation V))
    (address : String) (segments : List Segment) :
    let a := ((ofPolicy policy remembered).run ops).arena
    (∀ id, a.peek? .root segments = some id ↔
      a.lookUp address .root segments = .ok (.scope id)) ∧
    (∀ id, a.peek? .root segments = some id →
      a.walk .root segments = (.ok id, a) ∧
      a.record .root [] segments = (.ok (id, Address.path segments), a) ∧
      a.resolve (Address.path segments) = .ok id) ∧
    ∀ id b, a.walk .root segments = (.ok id, b) →
      a.record .root [] segments = (.ok (id, Address.path segments), b) ∧
      b.peek? .root segments = some id ∧
      b.lookUp address .root segments = .ok (.scope id) ∧
      b.resolve (Address.path segments) = .ok id := by
  intro a
  have h : a.Sound := (sound_run policy remembered ops).arena
  refine ⟨fun id => (h.lookUp_eq_scope_iff address h.root).symm, fun id hpeek => ?_,
    fun id b hwalk => ?_⟩
  · obtain ⟨hne, hpath⟩ := Arena.peek?_eq_some_iff.mp hpeek
    have hwalk := Arena.walk_of_follow hne hpath
    exact ⟨hwalk, Arena.record_of_walk hwalk [], hpath⟩
  · obtain ⟨hb, hpath⟩ := h.of_walk hwalk
    have hpeek := h.peek?_of_walk hwalk
    exact ⟨Arena.record_of_walk hwalk [], hpeek, (hb.lookUp_eq_scope_iff address hb.root).mpr hpeek,
      hpath⟩

/-! ### Assignments -/

theorem exists_of_assign {name : String} {v : V} (h : w.assign name v = (.ok (), u)) :
    ∃ address segments key t id b c, w.address name = .ok address ∧
      address.segments = segments ++ [.key key] ∧ w.popAnonymous = .ok t ∧
      t.arena.walk .root segments = (.ok id, b) ∧ b.write id key v = .ok c ∧
      u = { t with arena := c } := by
  unfold assign at h
  cases ha : w.address name with
  | error e => simp [ha, Except.bind] at h
  | ok address =>
    cases ht : address.target with
    | error e => simp [ha, ht, Except.bind] at h
    | ok target =>
      obtain ⟨segments, key⟩ := target
      cases hw : w.popAnonymous with
      | error e => simp [ha, ht, hw, Except.bind] at h
      | ok t =>
        simp only [ha, ht, hw, Except.bind, writeAt] at h
        rcases hwalk : t.arena.walk .root segments with ⟨e | id, b⟩
        · simp [hwalk] at h
        · cases hwrite : b.write id key v with
          | error e => simp [hwalk, hwrite] at h
          | ok c =>
            simp only [hwalk, hwrite, Prod.mk.injEq, true_and] at h
            exact ⟨address, segments, key, t, id, b, c, rfl, Address.segments_of_target ht, rfl,
              hwalk, hwrite, h.symm⟩

/-- **An assignment that succeeds is read back.** After every run, and whatever the name is made of,
a look-up of the same name right after the assignment finds the value and changes nothing. -/
theorem run_assigned_looked_up (policy : Policy) (remembered : List String)
    (ops : List (Operation V)) (name : String) (v : V) :
    let w := (ofPolicy policy remembered).run ops
    let after := (w.apply (.assign name v)).2
    (w.apply (.assign name v)).1 = .ok .done →
      after.apply (.lookUp name) = (.ok (.found (.value v)), after) := by
  intro w after hdone
  have h : w.Sound := sound_run policy remembered ops
  have hafter : after.Sound := (h.apply (.assign name v)).changes.sound h
  obtain ⟨_, hok, -⟩ := exists_of_map hdone
  obtain ⟨address, segments, key, t, id, b, c, ha, hsegments, hw, hwalk, hwrite, hu⟩ :=
    exists_of_assign (u := after) (Prod.ext hok rfl)
  obtain ⟨ht, hc, -⟩ := h.popAnonymous_again hw
  have hagain : after.address name = .ok address := by
    rw [Workspace.address, hu]
    exact (address_of_popAnonymous hw name).trans ha
  have hnamed : address.isAnonymous = false := by
    rw [Address.isAnonymous, hsegments, List.getLast?_concat]
    rfl
  have hpop : after.popAnonymous = .ok after := hafter.popAnonymous_of_global (hu ▸ hc)
  have hlook : after.arena.lookUp address.text .root address.segments = .ok (.value v) := by
    rw [hu, hsegments]
    exact ht.arena.lookUp_of_write hwalk hwrite address.text
  simp only [apply, Workspace.lookUp, hagain, hnamed, Bool.false_eq_true, if_false, hpop, hlook]
  rfl

/-- With an entry open under `list`, a value is assigned by shorthand to a quoted key below another
entry. A scope is created on the way in the place of a value. -/
theorem assigned_looked_up_below_entry :
    let w : Workspace Nat := (ofPolicy .default []).run
      [.createNamed "list.", .assignLocal "k" 1, .createNamed "list."]
    let after := (w.apply (.assign ".[0].k.'a.b'" 2)).2
    (w.apply (.assign ".[0].k.'a.b'" 2)).1 = .ok .done ∧ w.cursor ≠ none ∧
      after.apply (.lookUp ".[0].k.'a.b'") = (.ok (.found (.value 2)), after) := by
  intro w after
  have hdone : (w.apply (.assign ".[0].k.'a.b'" 2)).1 = .ok .done := rfl
  refine ⟨hdone, ?_, run_assigned_looked_up .default [] _ ".[0].k.'a.b'" 2 hdone⟩
  rw [show w.cursor = some ⟨[.key "list"], 3⟩ from rfl]
  simp

end ScopedConfig.Workspace
