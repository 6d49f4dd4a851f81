import ScopedConfig.Proofs.Tree.Commuting
import ScopedConfig.Proofs.Tree.Refinement
import ScopedConfig.Proofs.Workspace.Footprint
import ScopedConfig.Proofs.Workspace.Invariants

/-!
# Assignments that commute

Two names that stand for keys which are apart may be assigned to in either order. Each assignment
is answered as it is without the other one. The scopes that the two create get other numbers in the
other order, but no look-up tells the workspaces apart, because their outlines are equal: an outline
has no numbers, and in it the two assignments are visits that commute.

Key definitions: `Workspace.LooksAlike`.
Key theorems: `Outline.eitherOrder_assign`, `Workspace.looksAlike_of_unfold_eq`,
`Workspace.run_assigns_commute`.
-/

namespace ScopedConfig

variable {V : Type}

/-! ### In an outline -/

namespace Outline

variable {o : Outline V} {name name' : String} {segments segments' : List Segment}
  {key key' : String}

/-- In an outline whose open tree is left, an assignment is a visit of the tree of all. -/
theorem assign_left
    (h : (Address.ofName name o.remembered).bind Address.target = .ok (segments, key))
    (root : Tree V) (v : V) : { o.pop with root := root }.assign name v =
      ((root.visit (Tree.write key v) segments).1,
        { o.pop with root := (root.visit (Tree.write key v) segments).2 }) := by
  have hpop : { o.pop with root := root }.pop = { o.pop with root := root } := by
    rw [pop, opened_pop]
  rw [← remembered_pop o] at h
  rw [assign_eq { o.pop with root := root } h, hpop]
  rfl

/-- **Assignments that are visits which commute may be done in either order.** -/
theorem eitherOrder_assign
    (h : (Address.ofName name o.remembered).bind Address.target = .ok (segments, key))
    (h' : (Address.ofName name' o.remembered).bind Address.target = .ok (segments', key'))
    {v v' : V} (hvisit : EitherOrder (Tree.visit (Tree.write key v) segments)
      (Tree.visit (Tree.write key' v') segments') o.pop.root) :
    EitherOrder (assign · name v) (assign · name' v') o := by
  have hfirst : o.assign name v = _ := assign_eq o h v
  have hsecond : o.assign name' v' = _ := assign_eq o h' v'
  constructor
  · simp only [hfirst, hsecond, visit, assign_left h]
    exact hvisit.first
  · simp only [hfirst, hsecond, visit, assign_left h']
    exact hvisit.second
  · simp only [hfirst, hsecond, visit, assign_left h, assign_left h', hvisit.state]

end Outline

namespace Workspace

variable {w w' : Workspace V}

/-! ### What look-ups tell apart -/

/-- Two look-ups end alike, each in its own workspace: both find the same value, or nothing, or
scopes with the same policy, the same keys and as many appended scopes, or both fail with the same
code. -/
inductive LooksAlike (r r' : Except Fault (Found V) × Workspace V) : Prop
  | value (v : V) (h : r.1 = .ok (.value v)) (h' : r'.1 = .ok (.value v))
  | nothing (h : r.1 = .ok .nothing) (h' : r'.1 = .ok .nothing)
  | scope {id id' : ScopeId} {s s' : Scope V} (h : r.1 = .ok (.scope id))
      (h' : r'.1 = .ok (.scope id')) (hs : r.2.arena.scopes[id]? = some s)
      (hs' : r'.2.arena.scopes[id']? = some s') (policy : s.policy = s'.policy)
      (keys : s.entries.keys = s'.entries.keys) (appended : s.appended.length = s'.appended.length)
  | refused {e e' : Fault} (h : r.1 = .error e) (h' : r'.1 = .error e') (code : e.code = e'.code)

theorem Sound.exists_of_lookUp (h : w.Sound) (name : String) (id : ScopeId)
    (hfound : (w.lookUp name).1 = .ok (.scope id)) :
    (w.lookUp name).2.arena.Sound ∧ ∃ s, (w.lookUp name).2.arena.scopes[id]? = some s := by
  obtain ⟨yields, htarget⟩ := h.lookUp name
  have hafter := yields.changes.sound h
  exact ⟨hafter.arena, hafter.exists_of_targets (htarget id hfound)⟩

/-- **No look-up tells workspaces with equal outlines apart.** -/
theorem looksAlike_of_unfold_eq (h : w.Sound) (h' : w'.Sound) (hunfold : w.unfold = w'.unfold)
    (name : String) : LooksAlike (w.lookUp name) (w'.lookUp name) := by
  have hshown : outlined (fun a what => what.unfold a) (w.lookUp name) =
      outlined (fun a what => what.unfold a) (w'.lookUp name) := by
    rw [h.outlined_lookUp, h'.outlined_lookUp, hunfold]
  have hresult := (Prod.mk.inj hshown).1
  have hscope := h.exists_of_lookUp name
  have hscope' := h'.exists_of_lookUp name
  revert hresult hscope hscope'
  generalize w.lookUp name = r
  generalize w'.lookUp name = r'
  obtain ⟨e | found, u⟩ := r <;> obtain ⟨e' | found', u'⟩ := r' <;> intro hresult hscope hscope'
  · exact .refused rfl rfl (Except.error.inj hresult)
  · exact absurd hresult (by simp [Except.map, Except.mapError])
  · exact absurd hresult (by simp [Except.map, Except.mapError])
  · have heq : found.unfold u.arena = found'.unfold u'.arena := Except.ok.inj hresult
    rcases found with v | id | _ <;> rcases found' with v' | id' | _ <;>
      simp only [Found.unfold, Option.some.injEq, Item.value.injEq, Item.scope.injEq,
        reduceCtorEq] at heq
    · exact .value v rfl (heq ▸ rfl)
    · obtain ⟨hu, s, hs⟩ := hscope id rfl
      obtain ⟨hu', s', hs'⟩ := hscope' id' rfl
      refine .scope rfl rfl hs hs' ?_ ?_ ?_
      · rw [← hu.policy_unfold hs, heq, hu'.policy_unfold hs']
      · rw [← hu.keys_unfold hs, heq, hu'.keys_unfold hs']
      · rw [← List.length_map u.arena.unfold, ← hu.appended_unfold hs, heq,
          hu'.appended_unfold hs', List.length_map]
    · exact .nothing rfl rfl

/-! ### Two assignments -/

/-- Names that stand for keys which are apart may be assigned to in either order, as far as outlines
show. -/
theorem Sound.eitherOrder_outlined (h : w.Sound) {name name' : String} {address address' : Address}
    {keys keys' : List String} (ha : w.address name = .ok address)
    (ha' : w.address name' = .ok address') (hkeys : address.segments = keys.map .key)
    (hkeys' : address'.segments = keys'.map .key) (hapart : Tree.Apart keys keys') (v v' : V) :
    EitherOrder (Outline.assign · name v) (Outline.assign · name' v') w.unfold := by
  have hne : keys ≠ [] := fun hnil => hapart.1 (hnil ▸ List.nil_prefix)
  have hne' : keys' ≠ [] := fun hnil => hapart.2 (hnil ▸ List.nil_prefix)
  have htarget : (Address.ofName name w.unfold.remembered).bind Address.target =
      .ok (keys.dropLast.map .key, keys.getLast hne) := by
    rw [show Address.ofName name w.unfold.remembered = .ok address from ha]
    exact Address.target_of_keys hkeys hne
  have htarget' : (Address.ofName name' w.unfold.remembered).bind Address.target =
      .ok (keys'.dropLast.map .key, keys'.getLast hne') := by
    rw [show Address.ofName name' w.unfold.remembered = .ok address' from ha']
    exact Address.target_of_keys hkeys' hne'
  refine Outline.eitherOrder_assign htarget htarget' (h.ordered_pop.eitherOrder_write ?_ v v')
  rwa [List.dropLast_append_getLast, List.dropLast_append_getLast]

theorem Sound.assign_unfold (h : w.Sound) (name : String) (v : V) :
    (w.assign name v).1.mapError Fault.code = (w.unfold.assign name v).1 ∧
      (w.assign name v).2.unfold = (w.unfold.assign name v).2 := by
  rw [← h.outlined_assign name v, outlined]
  exact ⟨by cases (w.assign name v).1 <;> rfl, rfl⟩

/-- **Assignments to keys that are apart commute.** After every run, let two names be read as keys
such that neither go on from the other ones. Whichever of the two names is assigned to first, each
assignment succeeds or fails with the same code as it does when it comes first, and no look-up tells
the two workspaces apart that the two orders end in. -/
theorem run_assigns_commute (policy : Policy) (remembered : List String) (ops : List (Operation V))
    (name name' : String) (v v' : V) :
    let w := (ofPolicy policy remembered).run ops
    ∀ (address address' : Address) (keys keys' : List String), w.address name = .ok address →
      w.address name' = .ok address' → address.segments = keys.map .key →
      address'.segments = keys'.map .key → Tree.Apart keys keys' →
    let first := w.assign name v
    let first' := w.assign name' v'
    let second := first'.2.assign name v
    let second' := first.2.assign name' v'
    second.1.mapError Fault.code = first.1.mapError Fault.code ∧
      second'.1.mapError Fault.code = first'.1.mapError Fault.code ∧
      ∀ other, LooksAlike (second'.2.lookUp other) (second.2.lookUp other) := by
  intro w address address' keys keys' ha ha' hkeys hkeys' hapart first first' second second'
  have h : w.Sound := sound_run policy remembered ops
  have hafter : first.2.Sound := (h.assign name v).changes.sound h
  have hafter' : first'.2.Sound := (h.assign name' v').changes.sound h
  have hsecond : second.2.Sound := (hafter'.assign name v).changes.sound hafter'
  have hsecond' : second'.2.Sound := (hafter.assign name' v').changes.sound hafter
  obtain ⟨hresult, hresult', hstate⟩ :=
    h.eitherOrder_outlined ha ha' hkeys hkeys' hapart v v'
  obtain ⟨hfirst, hunfold⟩ := h.assign_unfold name v
  obtain ⟨hfirst', hunfold'⟩ := h.assign_unfold name' v'
  obtain ⟨hthen, hend⟩ := hafter'.assign_unfold name v
  obtain ⟨hthen', hend'⟩ := hafter.assign_unfold name' v'
  rw [hunfold'] at hthen hend
  rw [hunfold] at hthen' hend'
  exact ⟨hthen.trans (hresult.trans hfirst.symm), hthen'.trans (hresult'.trans hfirst'.symm),
    looksAlike_of_unfold_eq hsecond' hsecond (hend'.trans (hstate.trans hend.symm))⟩

/-- Two settings in a branch that does not exist yet, while an entry is open. -/
theorem assigns_commute_in_new_branch :
    let w : Workspace Nat := (ofPolicy .default []).run [.createNamed "a.list.", .assignLocal "k" 1]
    let first := w.assign "b.c.x" 2
    let first' := w.assign "b.'c'.y.z" 3
    let second := first'.2.assign "b.c.x" 2
    let second' := first.2.assign "b.'c'.y.z" 3
    w.cursor ≠ none ∧ Tree.Apart ["b", "c", "x"] ["b", "c", "y", "z"] ∧
      second.1.mapError Fault.code = first.1.mapError Fault.code ∧
      second'.1.mapError Fault.code = first'.1.mapError Fault.code ∧
      ∀ other, LooksAlike (second'.2.lookUp other) (second.2.lookUp other) := by
  intro w first first' second second'
  have hapart : Tree.Apart ["b", "c", "x"] ["b", "c", "y", "z"] := by decide
  refine ⟨?_, hapart, run_assigns_commute .default []
    [.createNamed "a.list.", .assignLocal "k" 1] "b.c.x" "b.'c'.y.z" 2 3
    ⟨"b.c.x", [.key "b", .key "c", .key "x"]⟩
    ⟨"b.'c'.y.z", [.key "b", .key "c", .key "y", .key "z"]⟩
    ["b", "c", "x"] ["b", "c", "y", "z"] rfl rfl rfl rfl hapart⟩
  rw [show w.cursor = some ⟨[.key "a", .key "list"], 3⟩ from rfl]
  simp

end Workspace

end ScopedConfig
