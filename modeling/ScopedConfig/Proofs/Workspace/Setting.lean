import ScopedConfig.Proofs.Address.Plain
import ScopedConfig.Proofs.Tree.Keys
import ScopedConfig.Proofs.Tree.Refinement

/-!
# Settings

A setting is a value at the end of plain keys. A workspace into which settings were assigned, and
nothing else was written, holds them all: an assignment at the end of keys that are apart from the
keys of those that stand there succeeds and leaves them where they are, and a look-up finds each.

Key definitions: `Setting`, `Workspace.HoldsAll`.
Key theorems: `Workspace.HoldsAll.assign`, `Workspace.HoldsAll.lookUp`.
-/

namespace ScopedConfig

variable {V : Type}

/-- A value at the end of keys. -/
structure Setting (V : Type) where
  path : List String
  value : V

namespace Setting

/-- The name of a setting in an address. -/
def name (s : Setting V) : String :=
  Address.dotted s.path

/-- There is a key, and none needs quotes. -/
structure Plain (s : Setting V) : Prop where
  nonempty : s.path ≠ []
  keys : ∀ key ∈ s.path, Segment.Plain key

/-- Neither path goes on from the other one, and they are not equal. -/
def Apart (s t : Setting V) : Prop :=
  Tree.Apart s.path t.path

instance (s t : Setting V) : Decidable (s.Apart t) :=
  inferInstanceAs (Decidable (Tree.Apart _ _))

end Setting

namespace Outline

variable {o : Outline V} {s : Setting V}

/-- **A value is assigned in a tree that refuses nothing.** -/
theorem apply_assign (ho : o.opened = none) (hfree : o.root.Unrestricted) (hs : s.Plain) :
    ∃ root, o.apply (.assign s.name s.value) = (.ok .done, { o with root := root }) ∧
      Tree.Assigned s.path s.value o.root root := by
  obtain ⟨path, key, hpath⟩ := (List.eq_nil_or_concat' s.path).resolve_left hs.nonempty
  obtain ⟨root, hvisit, hassigned⟩ := hfree.visit_write key s.value path
  have htarget : (Address.ofName s.name o.remembered).bind Address.target =
      .ok (path.map .key, key) := by
    rw [Setting.name, Address.ofName_dotted hs.nonempty hs.keys]
    simp [Except.bind, Address.target, hpath]
  refine ⟨root, ?_, hpath ▸ hassigned⟩
  rw [apply, assign_eq o htarget, pop_of_none ho, visit, hvisit]
  rfl

/-- A look-up of a name that leads to no new scope is made in the tree that is left behind. -/
theorem apply_lookUp_of_ofName {name : String} {segments : List Segment}
    (haddress : Address.ofName name o.remembered = .ok ⟨name, segments⟩)
    (hnamed : .anonymous ∉ segments) :
    o.apply (.lookUp name) = ((o.pop.root.lookUp segments).map .found, o.pop) := by
  have hread : o.address name = .ok ⟨name, segments⟩ := by
    rw [address, haddress]
    rfl
  have hfalse : Address.isAnonymous ⟨name, segments⟩ = false :=
    Address.isAnonymous_of_not_mem hnamed
  simp only [apply, lookUp, leaveFor, hread, hfalse, Bool.false_eq_true, if_false]
  rfl

theorem apply_lookUp (ho : o.opened = none) (hs : s.Plain)
    (hstores : Tree.Stores s.value s.path o.root) :
    o.apply (.lookUp s.name) = (.ok (.found (some (.value s.value))), o) := by
  have haddress := Address.ofName_dotted hs.nonempty hs.keys o.remembered
  rw [Setting.name, apply_lookUp_of_ofName haddress (by simp), pop_of_none ho, hstores.lookUp]
  rfl

end Outline

namespace Workspace

/-! ### What is shown -/

variable {r : Except Fault (Reply V) × Workspace V} {o : Outline V}

theorem exists_of_shown {answer : Answer V} (h : shown r = (.ok answer, o)) :
    ∃ reply w, r = (.ok reply, w) ∧ reply.unfold w.arena = answer ∧ w.unfold = o := by
  obtain ⟨_ | reply, w⟩ := r
  · simp [shown, outlined, Except.map, Except.mapError] at h
  · simp only [shown, outlined, Except.map, Except.mapError, Prod.mk.injEq, Except.ok.injEq] at h
    exact ⟨reply, w, rfl, h⟩

theorem eq_of_shown_done (h : shown r = (.ok .done, o)) :
    ∃ w, r = (.ok .done, w) ∧ w.unfold = o := by
  obtain ⟨reply, w, rfl, hreply, hw⟩ := exists_of_shown h
  cases reply with
  | done => exact ⟨w, rfl, hw⟩
  | found what => simp [Reply.unfold] at hreply
  | policy p => simp [Reply.unfold] at hreply

theorem exists_of_shown_found {what? : Option (Item V (Tree V))}
    (h : shown r = (.ok (.found what?), o)) :
    ∃ what w, r = (.ok (.found what), w) ∧ what.unfold w.arena = what? ∧ w.unfold = o := by
  obtain ⟨reply, w, rfl, hreply, hw⟩ := exists_of_shown h
  cases reply with
  | done => simp [Reply.unfold] at hreply
  | found what => exact ⟨what, w, rfl, Answer.found.inj hreply, hw⟩
  | policy p => simp [Reply.unfold] at hreply

theorem eq_of_shown_value {v : V} (h : shown r = (.ok (.found (some (.value v))), o)) :
    ∃ w, r = (.ok (.found (.value v)), w) ∧ w.unfold = o := by
  obtain ⟨what, w, rfl, hwhat, hw⟩ := exists_of_shown_found h
  cases what with
  | value u =>
    obtain rfl := Item.value.inj (Option.some.inj hwhat)
    exact ⟨w, rfl, hw⟩
  | scope id => simp [Found.unfold] at hwhat
  | nothing => simp [Found.unfold] at hwhat

theorem eq_of_shown_nothing (h : shown r = (.ok (.found none), o)) :
    ∃ w, r = (.ok (.found .nothing), w) ∧ w.unfold = o := by
  obtain ⟨what, w, rfl, hwhat, hw⟩ := exists_of_shown_found h
  cases what with
  | value u => simp [Found.unfold] at hwhat
  | scope id => simp [Found.unfold] at hwhat
  | nothing => exact ⟨w, rfl, hw⟩

theorem Sound.exists_of_done {w : Workspace V} (h : w.Sound) {op : Operation V}
    (happly : w.unfold.apply op = (.ok .done, o)) :
    ∃ w', w.apply op = (.ok .done, w') ∧ w'.Sound ∧ w'.unfold = o := by
  obtain ⟨w', hr, hw⟩ := eq_of_shown_done ((h.shown_apply op).trans happly)
  have hsound := (h.apply op).changes.sound h
  rw [hr] at hsound
  exact ⟨w', hr, hsound, hw⟩

/-! ### Settings in a workspace -/

/-- Every one of the settings stands in the workspace, no scope is open, and nothing is refused. -/
structure HoldsAll (w : Workspace V) (settings : List (Setting V)) : Prop where
  sound : w.Sound
  opened : w.unfold.opened = none
  unrestricted : w.unfold.root.Unrestricted
  stores : ∀ s ∈ settings, Tree.Stores s.value s.path w.unfold.root

namespace HoldsAll

variable {w : Workspace V} {s : Setting V} {settings : List (Setting V)}

theorem empty : (Workspace.empty : Workspace V).HoldsAll [] where
  sound := sound_ofPolicy .default []
  opened := rfl
  unrestricted := Tree.unrestricted_empty
  stores := List.forall_mem_nil _

/-- **A setting that is apart from the others joins them.** -/
theorem assign (h : w.HoldsAll settings) (hs : s.Plain) (hapart : ∀ t ∈ settings, t.Apart s) :
    ∃ w', w.apply (.assign s.name s.value) = (.ok .done, w') ∧ w'.HoldsAll (s :: settings) := by
  obtain ⟨root, happly, hassigned⟩ := Outline.apply_assign h.opened h.unrestricted hs
  obtain ⟨w', hr, hsound, hw⟩ := h.sound.exists_of_done happly
  refine ⟨w', hr, hsound, ?_, ?_, ?_⟩
  · rw [hw]
    exact h.opened
  · rw [hw]
    exact hassigned.unrestricted
  · rw [hw, List.forall_mem_cons]
    exact ⟨hassigned.stores, fun t ht => hassigned.keeps (hapart t ht) (h.stores t ht)⟩

theorem lookUp (h : w.HoldsAll settings) (hs : s.Plain) (hmem : s ∈ settings) :
    ∃ w', w.apply (.lookUp s.name) = (.ok (.found (.value s.value)), w') ∧
      w'.HoldsAll settings := by
  have happly := Outline.apply_lookUp h.opened hs (h.stores s hmem)
  obtain ⟨w', hr, hw⟩ := eq_of_shown_value ((h.sound.shown_apply _).trans happly)
  have hsound := (h.sound.apply (.lookUp s.name)).changes.sound h.sound
  rw [hr] at hsound
  exact ⟨w', hr, hsound, hw ▸ h.opened, hw ▸ h.unrestricted, hw ▸ h.stores⟩

end HoldsAll

end Workspace

end ScopedConfig
