import ScopedConfig.Proofs.Address.Absolute
import ScopedConfig.Proofs.Arena.Finding
import ScopedConfig.Proofs.Workspace.Refusal

/-!
# What a refused write costs

A write that is refused leaves every value where it was, with one exception. A walk replaces a value
in its way by a scope as soon as it comes to it, and only then looks at the segments behind. If one
of them is an index, it is out of range, since there is nothing in the new scope; the write is
refused, and the value is gone. So a value is lost to a refused write exactly if an index was out of
range and the address of the write leaves the existing scopes at the very key that holds the value.

Key definitions: `Workspace.way?`, `Workspace.StandsInWay`, `Workspace.RefusedAlong`,
`Workspace.WriteRefused`.
Key theorems: `Workspace.Sound.finds_refusedAlong`, `Workspace.Sound.writeRefused`,
`Workspace.run_refused_write_keeps`.
-/

namespace ScopedConfig.Workspace

variable {V : Type} {w w' u : Workspace V} {segments : List Segment} {e : Fault}

/-- The segments along which a write walks: those in front of the marker of a new scope, or in front
of the key that is assigned. -/
def way? (w : Workspace V) : Operation V → Option (List Segment)
  | .createNamed name =>
    match w.address name with
    | .error _ => none
    | .ok a => some (if a.isAnonymous then a.segments.dropLast else a.segments)
  | .assign name _ =>
    match (w.address name).bind Address.target with
    | .error _ => none
    | .ok (segments, _) => some segments
  | _ => none

/-- What a name leads to stands in the way of a write: the write comes to the same key of the same
scope, which leads to no further scope. -/
def StandsInWay (w : Workspace V) (name : String) (op : Operation V) : Prop :=
  ∃ segments address, w.way? op = some segments ∧ w.address name = .ok address ∧
    w.arena.gap? .root segments = w.arena.gap? .root address.segments

theorem standsInWay_iff {name : String} {op : Operation V} {address : Address}
    (hway : w.way? op = some segments) (ha : w.address name = .ok address) :
    w.StandsInWay name op ↔ w.arena.gap? .root segments = w.arena.gap? .root address.segments := by
  constructor
  · rintro ⟨segments', address', hway', ha', hgap⟩
    obtain rfl := Option.some.inj (hway.symm.trans hway')
    obtain rfl := Except.ok.inj (ha.symm.trans ha')
    exact hgap
  · exact fun hgap => ⟨segments, address, hway, ha, hgap⟩

/-- A write along segments is refused on its way, or at the end of it for another cause than an
index. -/
inductive RefusedAlong (w : Workspace V) (segments : List Segment) (e : Fault) :
    Workspace V → Prop
  | onWay {b : Arena V} (walk : w.arena.walk .root segments = (.error e, b)) :
      RefusedAlong w segments e { w with arena := b }
  | atEnd (code : e.code ≠ .scopeIndexOutOfRange) : RefusedAlong w segments e w

/-- A write cannot read its name, or it is refused along its way from a workspace with the scopes
that are there when the open scope was left. -/
inductive WriteRefused (w w' : Workspace V) (op : Operation V) (e : Fault) : Workspace V → Prop
  | unread (malformed : e.kind = .malformed) : WriteRefused w w' op e w
  | along {segments : List Segment} {u after : Workspace V} (way : w'.way? op = some segments)
      (noMarker : .anonymous ∉ segments) (arena : u.arena = w'.arena) (cursor : u.cursor = none)
      (refused : u.RefusedAlong segments e after) : WriteRefused w w' op e after

theorem RefusedAlong.cursor (hr : w.RefusedAlong segments e u) : u.cursor = w.cursor := by
  cases hr <;> rfl

namespace Sound

/-! ### While no scope is open -/

/-- What is found after a refusal is found before, and the value in the way of an index is lost. -/
theorem finds_refusedAlong (h : w.arena.Sound) (hne : .anonymous ∉ segments)
    (hr : w.RefusedAlong segments e u) {v : V} {holder : ScopeId} {key : String}
    {way : List Segment} :
    u.arena.Finds v holder key .root way ↔ w.arena.Finds v holder key .root way ∧
      ¬(e.code = .scopeIndexOutOfRange ∧ w.arena.gap? .root segments = some (holder, key)) := by
  cases hr with
  | onWay walk =>
    obtain ⟨s, hs⟩ := h.root
    exact h.finds_walk_iff hs hne walk hs
  | atEnd code => exact (and_iff_left fun hlost => code hlost.1).symm

theorem createPath_refusedAlong (he : (w.createPath segments).1 = .error e) :
    w.RefusedAlong segments e (w.createPath segments).2 := by
  unfold Workspace.createPath at he ⊢
  cases hwalk : w.arena.walk .root segments with
  | mk result b =>
    rw [hwalk] at he
    obtain rfl := eq_error_of_map he
    exact .onWay hwalk

/-- What is refused where the walk ends is refused along the way as long as no index is the
cause. -/
theorem refusedAlong_of_walk {r : Except Fault Unit × Workspace V} (hs : w.Spared r)
    (he : r.1 = .error e)
    (hrefused : ∀ e' b, w.arena.walk .root segments = (.error e', b) →
      r = (.error e', { w with arena := b }))
    (hreached : ∀ id b, w.arena.walk .root segments = (.ok id, b) →
      e.code ≠ .scopeIndexOutOfRange) : w.RefusedAlong segments e r.2 := by
  cases hwalk : w.arena.walk .root segments with
  | mk result b =>
    cases result with
    | error e' =>
      rw [hrefused e' b hwalk] at he ⊢
      obtain rfl := Except.error.inj he
      exact .onWay hwalk
    | ok id =>
      have hcode := hreached id b hwalk
      rw [hs.state e he hcode]
      exact .atEnd hcode

theorem openAt_refusedAlong (h : w.Sound) (hc : w.cursor = none) (hne : .anonymous ∉ segments)
    (he : (w.openAt segments).1 = .error e) :
    w.RefusedAlong segments e (w.openAt segments).2 := by
  refine refusedAlong_of_walk (h.openAt_spared hc hne) he (fun e' b hwalk => ?_)
    fun id b hwalk => ?_
  · simp only [Workspace.openAt, Workspace.createPath, hwalk, Except.map]
  · obtain ⟨hp, s, hs⟩ := h.exists_of_walk hc hwalk
    simp only [Workspace.openAt, Workspace.createPath, hwalk, Except.map, hc] at he
    cases hclosed : s.policy.isClosed with
    | true =>
      rw [enter_eq_of_isClosed hp hs hclosed] at he
      obtain rfl := Except.error.inj he
      simp [Fault.code]
    | false =>
      rw [enter_eq hp hs hclosed] at he
      simp [openWith] at he

theorem writeAt_refusedAlong (h : w.Sound) (hc : w.cursor = none) (hne : .anonymous ∉ segments)
    {key : String} {v : V} (he : (w.writeAt segments key v).1 = .error e) :
    w.RefusedAlong segments e (w.writeAt segments key v).2 := by
  refine refusedAlong_of_walk (h.writeAt_spared hne hc key v) he (fun e' b hwalk => ?_)
    fun id b hwalk => ?_
  · simp only [Workspace.writeAt, hwalk]
  · obtain ⟨-, s, hs⟩ := h.exists_of_walk hc hwalk
    simp only [Workspace.writeAt, hwalk] at he
    rcases Arena.write_cases hs key v with ⟨-, hw⟩ | ⟨-, -, hw⟩ | ⟨-, -, hw⟩
    · simp [show b.write id key v = _ from hw] at he
    · simp only [show b.write id key v = _ from hw] at he
      obtain rfl := Except.error.inj he
      simp [Fault.code]
    · simp only [show b.write id key v = _ from hw] at he
      obtain rfl := Except.error.inj he
      simp [Fault.code]

/-! ### A write with a name -/

theorem createNamed_refused (h : w.Sound) (hw : w.popAnonymous = .ok w') {name : String}
    (he : (w.createNamed name).1 = .error e) :
    w.WriteRefused w' (.createNamed name) e (w.createNamed name).2 := by
  obtain ⟨h', hc, -⟩ := h.popAnonymous_again hw
  have haddress := address_of_popAnonymous hw name
  unfold Workspace.createNamed at he ⊢
  cases hn : w.address name with
  | error e' =>
    rw [hn] at he
    obtain rfl := Except.error.inj he
    exact .unread (Address.kind_of_ofName hn)
  | ok address =>
    rw [hn] at haddress
    have hsound : (w'.remember address).Sound := Change.sound h' (.remember _)
    simp only [hn] at he ⊢
    cases hanon : address.isAnonymous with
    | true =>
      have hway : w'.way? (.createNamed name) = some address.segments.dropLast := by
        simp only [way?, haddress, hanon, if_true]
      have hne := Address.marker_not_mem_dropLast hn
      simp only [hanon, if_true, h.createAnonymous_eq address hw] at he ⊢
      exact .along (u := w'.remember address) hway hne rfl hc
        (hsound.openAt_refusedAlong hc hne he)
    | false =>
      have hway : w'.way? (.createNamed name) = some address.segments := by
        simp only [way?, haddress, hanon, Bool.false_eq_true, if_false]
      simp only [hanon, Bool.false_eq_true, if_false, hw] at he ⊢
      exact .along (u := w'.remember address) hway (Address.marker_not_mem hn hanon) rfl hc
        (createPath_refusedAlong he)

theorem assign_refused (h : w.Sound) (hw : w.popAnonymous = .ok w') {name : String} {v : V}
    (he : (w.assign name v).1 = .error e) :
    w.WriteRefused w' (.assign name v) e (w.assign name v).2 := by
  obtain ⟨h', hc, -⟩ := h.popAnonymous_again hw
  have haddress := address_of_popAnonymous hw name
  unfold Workspace.assign at he ⊢
  cases hn : w.address name with
  | error e' =>
    rw [hn] at he
    obtain rfl := Except.error.inj he
    exact .unread (Address.kind_of_ofName hn)
  | ok address =>
    rw [hn] at haddress
    cases ht : address.target with
    | error e' =>
      simp only [hn, Except.bind, ht] at he ⊢
      obtain rfl := Except.error.inj he
      exact .unread (Address.kind_of_target ht)
    | ok target =>
      have hway : w'.way? (.assign name v) = some target.1 := by
        simp only [way?, haddress, Except.bind, ht]
      have hne := Address.marker_not_mem_target hn ht
      simp only [hn, Except.bind, ht, hw] at he ⊢
      exact .along hway hne rfl hc (h'.writeAt_refusedAlong hc hne he)

/-- **A write that is refused could not read its name, or was refused along its way.** -/
theorem writeRefused (h : w.Sound) (hw : w.popAnonymous = .ok w') {op : Operation V}
    {name : String} (hop : op = .createNamed name ∨ ∃ v, op = .assign name v)
    (he : (w.apply op).1 = .error e) : w.WriteRefused w' op e (w.apply op).2 := by
  rcases hop with rfl | ⟨v, rfl⟩
  · exact h.createNamed_refused hw (eq_error_of_map he)
  · exact h.assign_refused hw (eq_error_of_map he)

end Sound

/-! ### Looking up a value -/

theorem exists_of_lookUp {name : String} {found : Found V} (hl : (w.lookUp name).1 = .ok found) :
    ∃ address, w.address name = .ok address ∧ address.isAnonymous = false := by
  unfold Workspace.lookUp at hl
  cases hn : w.address name with
  | error e => simp [hn] at hl
  | ok address =>
    simp only [hn] at hl
    cases hanon : address.isAnonymous with
    | true => simp [hanon] at hl
    | false => exact ⟨address, rfl, hanon⟩

theorem lookUp_eq_value_iff (hw : w.popAnonymous = .ok w') {name : String} {address : Address}
    (ha : w.address name = .ok address) (hanon : address.isAnonymous = false) (v : V) :
    (w.lookUp name).1 = .ok (.value v) ↔
      ∃ holder key, w'.arena.Finds v holder key .root address.segments := by
  simp only [Workspace.lookUp, ha, hanon, Bool.false_eq_true, if_false, hw]
  exact Arena.lookUp_eq_value_iff address.text

/-! ### After every run -/

/-- **A refused write costs the value in its way, if an index behind it is out of range, and no
other value.** After every run, what an absolute name leads to before a creation or an assignment
that is refused, it leads to afterwards, with this one exception. -/
theorem run_refused_write_keeps (policy : Policy) (remembered : List String)
    (ops : List (Operation V)) (op : Operation V) (target name : String) (v : V) (e : Fault) :
    let w := (ofPolicy policy remembered).run ops
    let after := (w.apply op).2
    (op = .createNamed target ∨ ∃ u, op = .assign target u) → (w.apply op).1 = .error e →
    Address.IsAbsolute name → (w.lookUp name).1 = .ok (.value v) →
    ∃ w', w.popAnonymous = .ok w' ∧ ((after.lookUp name).1 = .ok (.value v) ↔
      ¬(e.code = .scopeIndexOutOfRange ∧ w'.StandsInWay name op)) := by
  intro w after hop he habs hlook
  have h : w.Sound := sound_run policy remembered ops
  obtain ⟨w', hw, -⟩ := h.exists_popAnonymous
  obtain ⟨h', -, -⟩ := h.popAnonymous_again hw
  refine ⟨w', hw, ?_⟩
  have hafter : after.Sound := (h.apply op).changes.sound h
  have hrefused : w.WriteRefused w' op e after := h.writeRefused hw hop he
  clear_value after
  cases hrefused with
  | unread malformed =>
    refine iff_of_true hlook fun hlost => ?_
    rw [Fault.kind, hlost.1] at malformed
    exact absurd malformed (by decide)
  | @along segments u _ hway hne harena hcu hra =>
    obtain ⟨address, ha, hanon⟩ := exists_of_lookUp hlook
    obtain ⟨holder, key, hfound⟩ := (lookUp_eq_value_iff hw ha hanon v).mp hlook
    have hca : after.cursor = none := hra.cursor.trans hcu
    have haddress : after.address name = .ok address :=
      (Address.ofName_of_isAbsolute habs _ _).trans ha
    have hstands := standsInWay_iff hway ((address_of_popAnonymous hw name).trans ha)
    have hfinds {holder : ScopeId} {key : String} :
        after.arena.Finds v holder key .root address.segments ↔ _ :=
      Sound.finds_refusedAlong (harena ▸ h'.arena) hne hra
    rw [lookUp_eq_value_iff (hafter.popAnonymous_of_global hca) haddress hanon, hstands]
    simp only [hfinds, harena]
    constructor
    · -- what is found afterwards was found before, where the same segments lead to no scope
      rintro ⟨holder', key', hfound', hkept⟩
      rwa [hfound'.gap?_eq]
    · intro hkept
      rw [hfound.gap?_eq] at hkept
      exact ⟨holder, key, hfound, hkept⟩

/-- A write through `k` is refused at an index, while an entry is open under `list`, and the value
of `m.x` is kept. -/
theorem refused_write_keeps_other_value :
    let w : Workspace Nat := (ofPolicy .default []).run
      [.assign "k" 1, .assign "m.x" 2, .createNamed "list."]
    let op : Operation Nat := .assign "k.[0].y" 3
    (w.apply op).1 = .error (.indexOutOfRange 0 "k" 0) ∧ Address.IsAbsolute "m.x" ∧
      (w.lookUp "m.x").1 = .ok (.value 2) ∧ ((w.apply op).2.lookUp "m.x").1 = .ok (.value 2) := by
  intro w op
  have he : (w.apply op).1 = .error (.indexOutOfRange 0 "k" 0) := rfl
  have habs : Address.IsAbsolute "m.x" := by decide
  have hlook : (w.lookUp "m.x").1 = .ok (.value 2) := rfl
  obtain ⟨w', hw, hkept⟩ := run_refused_write_keeps .default []
    [.assign "k" 1, .assign "m.x" 2, .createNamed "list."] op "k.[0].y" "m.x" 2 _
    (.inr ⟨3, rfl⟩) he habs hlook
  refine ⟨he, habs, hlook, hkept.mpr ?_⟩
  have hw' : w.popAnonymous = .ok (w.apply .pop).2 := rfl
  obtain rfl := Except.ok.inj (hw'.symm.trans hw)
  rintro ⟨-, hstands⟩
  have hway : (w.apply .pop).2.way? op = some [.key "k", .index none 0] := rfl
  have ha : (w.apply .pop).2.address "m.x" = .ok ⟨"m.x", [.key "m", .key "x"]⟩ := rfl
  exact absurd ((standsInWay_iff hway ha).mp hstands) (by decide)

/-- The value of `k` is in the way of an index, and it is lost. -/
theorem refused_write_loses_value :
    let w : Workspace Nat := (ofPolicy .default []).run [.assign "k" 1]
    let op : Operation Nat := .assign "k.[0].x" 2
    (w.apply op).1 = .error (.indexOutOfRange 0 "k" 0) ∧ Address.IsAbsolute "k" ∧
      (w.lookUp "k").1 = .ok (.value 1) ∧ ((w.apply op).2.lookUp "k").1 = .ok (.scope 1) := by
  intro w op
  exact ⟨rfl, by decide, rfl, rfl⟩

end ScopedConfig.Workspace
