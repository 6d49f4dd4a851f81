import ScopedConfig.Proofs.Tree.Ordering
import ScopedConfig.Proofs.Tree.Outline
import ScopedConfig.Proofs.Tree.Visiting
import ScopedConfig.Proofs.Workspace.Operation

/-!
# A workspace is its outline

An arena shows nothing but the tree that it unfolds to. Each operation of a sound workspace answers
as the same operation of its outline does, with trees in the places of scopes, and ends in a
workspace whose outline is where that operation ends: when it succeeds, when it is refused, and when
a walk that is refused leaves what it has created. The open scope is what makes this hold: no path
leads to it, so what is written into it changes the open tree and nothing else.

Key definitions: `Workspace.unfold`, `Workspace.outlined`, `Workspace.shown`, `Workspace.trace`.
Key theorems: `Workspace.Sound.shown_apply`, `Workspace.trace_eq_outline`.
-/

namespace ScopedConfig

variable {V α β : Type}

/-- A reply with a tree in the place of a scope. -/
def Reply.unfold (a : Arena V) : Reply V → Answer V
  | done => .done
  | found what => .found (what.unfold a)
  | policy p => .policy p

namespace Workspace

/-- The outline of a workspace. -/
def unfold (w : Workspace V) : Outline V :=
  ⟨w.arena.unfold .root, w.remembered,
    w.cursor.map fun o => ⟨o.parentPath, w.arena.unfold o.id⟩⟩

/-- What an operation answers and ends in, as an outline shows it: a fault by its code, and what is
found in the arena that it is found in. -/
def outlined (f : Arena V → α → β) (r : Except Fault α × Workspace V) : Except Code β × Outline V :=
  ((r.1.map (f r.2.arena)).mapError Fault.code, r.2.unfold)

/-- The reply of an operation and the workspace it ends in, as an outline shows them. -/
def shown (r : Except Fault (Reply V) × Workspace V) : Except Code (Answer V) × Outline V :=
  outlined Reply.unfold r

/-- The replies and workspaces of operations done one after the other. -/
def trace (w : Workspace V) : List (Operation V) → List (Except Fault (Reply V) × Workspace V)
  | [] => []
  | op :: ops => w.apply op :: trace (w.apply op).2 ops

variable {w w' : Workspace V}

theorem unfold_of_global (hc : w.cursor = none) :
    w.unfold = ⟨w.arena.unfold .root, w.remembered, none⟩ := by
  rw [unfold, hc]
  rfl

theorem unfold_of_open {o : OpenScope} (ho : w.cursor = some o) :
    w.unfold = ⟨w.arena.unfold .root, w.remembered, some ⟨o.parentPath, w.arena.unfold o.id⟩⟩ := by
  rw [unfold, ho]
  rfl

theorem outlined_of_global (hc : w.cursor = none) (b : Arena V) (result : Except Fault Unit) :
    outlined (fun _ x => x) (result, { w with arena := b }) =
      (result.mapError Fault.code, ⟨b.unfold .root, w.remembered, none⟩) := by
  rw [outlined, unfold_of_global (w := { w with arena := b }) hc]
  cases result <;> rfl

theorem address_unfold (w : Workspace V) (name : String) :
    w.unfold.address name = (w.address name).mapError Fault.code :=
  rfl

namespace Sound

/-! ### The open scope -/

theorem resolve_ne_open (h : w.Sound) {o : OpenScope} (ho : w.cursor = some o) (path : List Step) :
    w.arena.resolve path ≠ .ok o.id := by
  intro hp
  obtain ⟨parent, hl⟩ := h.live o ho
  rcases List.eq_nil_or_concat path with rfl | ⟨path, step, rfl⟩
  · -- the root has no parent, and the open scope has one
    have hlt : parent < ScopeId.root := Except.ok.inj hp ▸ h.arena.lt_of_isChild hl.isChild
    exact absurd hlt (Nat.not_lt_zero parent)
  · rw [List.concat_eq_append] at hp
    obtain ⟨holder, -, hn⟩ := Arena.follow_append_iff.mp hp
    exact hl.free holder step (Arena.follow_singleton_iff.mp hn)

/-- **To leave the open scope is to append the open tree.** -/
theorem unfold_popAnonymous (h : w.Sound) (hw : w.popAnonymous = .ok w') :
    w'.unfold = w.unfold.pop := by
  cases ho : w.cursor with
  | none =>
    obtain rfl := Except.ok.inj ((h.popAnonymous_of_global ho).symm.trans hw)
    rw [unfold_of_global ho]
    rfl
  | some o =>
    obtain ⟨parent, hl⟩ := h.live o ho
    obtain ⟨p, hp⟩ := hl.exists_parent h.arena
    have hpop := h.popAnonymous_of_open ho hl
    obtain rfl := Except.ok.inj (hpop.symm.trans hw)
    have hb : (w.arena.update parent (·.adopt o.id)).Sound :=
      (Change.sound h (.leave ho hl.isChild)).arena
    have hroot := h.arena.unfold_eq_modify hb (Arena.agreesOff_update _ parent _)
      (f := (·.adopt (w.arena.unfold o.id))) (h.arena.unfold_adopt hp hb hl.isChild) hl.resolves
    rw [unfold_of_open ho, unfold_of_global rfl]
    simp only [Outline.pop, hroot]

theorem ordered_pop (h : w.Sound) : w.unfold.pop.root.Ordered := by
  obtain ⟨w', hw', c, -⟩ := h.exists_popAnonymous
  obtain ⟨r, hr⟩ := (c.sound h).arena.root
  rw [← h.unfold_popAnonymous hw']
  exact (c.sound h).arena.ordered_unfold hr

/-- The cursor's scope is the current tree, and what is done to it alone is done to that tree. -/
theorem exists_current (h : w.Sound) :
    ∃ id s, w.currentScope = .ok id ∧ w.arena.scopes[id]? = some s ∧
      w.unfold.current = w.arena.unfold id ∧
      ∀ b : Arena V, b.Sound → w.arena.AgreesOff b id →
        unfold { w with arena := b } = w.unfold.setCurrent (b.unfold id) := by
  obtain ⟨id, s, hid, htarget, hs⟩ := h.exists_currentScope
  refine ⟨id, s, hid, hs, ?_⟩
  cases ho : w.cursor with
  | none =>
    rw [currentScope, ho] at hid
    obtain rfl := Except.ok.inj hid
    rw [unfold_of_global ho]
    exact ⟨rfl, fun b hb hab => rfl⟩
  | some o =>
    rw [Targets, ho] at htarget
    obtain rfl := htarget
    obtain ⟨r, hr⟩ := h.arena.root
    rw [unfold_of_open ho]
    refine ⟨rfl, fun b hb hab => ?_⟩
    rw [unfold_of_open rfl]
    simp only [Outline.setCurrent,
      h.arena.unfold_of_unreached hb hab hr fun path => h.resolve_ne_open ho path]

/-! ### Writing -/

/-- The scopes that are created on the way are the trees that a visit makes which does nothing at
the end of it. -/
theorem outlined_createPath (h : w.Sound) (hc : w.cursor = none) (segments : List Segment) :
    outlined (fun _ x => x) (w.createPath segments) = w.unfold.visit Tree.stay segments := by
  simp only [Workspace.createPath, Outline.visit, unfold_of_global hc]
  rcases h.arena.visit_root Tree.stay segments with
    ⟨e, b, hwalk, hb, hvisit⟩ | ⟨target, b, hwalk, hb, -, hact⟩
  · rw [hwalk, hvisit]
    exact outlined_of_global hc ..
  · rw [hwalk, hact b (.ok ()) hb (Arena.agreesOff_self b target) rfl]
    exact outlined_of_global hc ..

theorem outlined_writeAt (h : w.Sound) (hc : w.cursor = none) (segments : List Segment)
    (key : String) (v : V) :
    outlined (fun _ x => x) (w.writeAt segments key v) =
      w.unfold.visit (Tree.write key v) segments := by
  simp only [Workspace.writeAt, Outline.visit, unfold_of_global hc]
  rcases h.arena.visit_root (Tree.write key v) segments with
    ⟨e, b, hwalk, hb, hvisit⟩ | ⟨target, b, hwalk, hb, hp, hact⟩
  · rw [hwalk, hvisit]
    exact outlined_of_global hc ..
  · obtain ⟨s, hs⟩ := hb.exists_of_resolve hp
    rcases hb.write_unfold hs key v with ⟨b', hwrite, hb', hbb', ht⟩ | ⟨e, hwrite, ht⟩
    · rw [hwalk, hact b' (.ok ()) hb' hbb' ht]
      simp only [hwrite]
      exact outlined_of_global hc ..
    · rw [hwalk, hact b (.error e.code) hb (Arena.agreesOff_self b target) ht]
      simp only [hwrite]
      exact outlined_of_global hc ..

/-- **An anonymous scope is opened where a visit finds a tree that is open.** -/
theorem outlined_openAt (h : w.Sound) (hc : w.cursor = none) (segments : List Segment) :
    outlined (fun _ x => x) (w.openAt segments) = w.unfold.openAt segments := by
  obtain ⟨a, cursor, remembered, flag⟩ := w
  obtain rfl : cursor = none := hc
  simp only [Workspace.openAt, Workspace.createPath, Outline.openAt, Outline.visit,
    unfold_of_global]
  rcases h.arena.visit_root Tree.ensureOpen segments with
    ⟨e, b, hwalk, hb, hvisit⟩ | ⟨target, b, hwalk, hb, hp, hact⟩
  · simp only [hwalk, hvisit]
    exact outlined_of_global (w := ⟨a, none, remembered, flag⟩) rfl b (.error e)
  · obtain ⟨s, hs⟩ := hb.exists_of_resolve hp
    have hpolicy := hb.policy_unfold hs
    have hself := Arena.agreesOff_self b target
    cases hclosed : s.policy.isClosed with
    | true =>
      have hvisit := hact b (.error .scopeClosedAdd) hb hself
        (by rw [Tree.ensureOpen, hpolicy, hclosed]; rfl)
      simp only [hwalk, hvisit, Except.map, enter_eq_of_isClosed hp hs hclosed, openWith]
      exact outlined_of_global (w := ⟨a, none, remembered, flag⟩) rfl b (.error _)
    | false =>
      have hvisit := hact b (.ok ()) hb hself (by rw [Tree.ensureOpen, hpolicy, hclosed]; rfl)
      have hx := hb.extend hs
      obtain ⟨r, hr⟩ := hb.root
      simp only [hwalk, hvisit, Except.map, enter_eq hp hs hclosed, openWith, outlined,
        Except.mapError]
      rw [unfold_of_open rfl, hb.unfold_extend hx hr, Arena.Sound.unfold_extend_self hx]

/-! ### Operations that write -/

theorem outlined_createNamed (h : w.Sound) (name : String) :
    outlined (fun _ x => x) (w.createNamed name) = w.unfold.createNamed name := by
  unfold Workspace.createNamed Outline.createNamed
  rw [address_unfold]
  cases w.address name with
  | error e => rfl
  | ok address =>
    obtain ⟨w', hw', c, hc⟩ := h.exists_popAnonymous
    have h' : (w'.remember address).Sound := (Change.remember _).sound (c.sound h)
    have hs : (w'.remember address).unfold = w.unfold.pop.remember address := by
      rw [← h.unfold_popAnonymous hw']
      rfl
    simp only [Except.mapError, hw', ← hs]
    cases address.isAnonymous with
    | true =>
      simp only [if_true, h.createAnonymous_eq address hw']
      exact h'.outlined_openAt hc _
    | false => exact h'.outlined_createPath hc _

theorem outlined_assign (h : w.Sound) (name : String) (v : V) :
    outlined (fun _ x => x) (w.assign name v) = w.unfold.assign name v := by
  unfold Workspace.assign Outline.assign Workspace.address
  rw [show w.unfold.remembered = w.remembered from rfl]
  cases (Address.ofName name w.remembered).bind Address.target with
  | error e => rfl
  | ok p =>
    obtain ⟨w', hw', c, hc⟩ := h.exists_popAnonymous
    simp only [Except.mapError, hw', ← h.unfold_popAnonymous hw']
    exact (c.sound h).outlined_writeAt hc p.1 p.2 v

theorem outlined_assignLocal (h : w.Sound) (text : String) (v : V) :
    outlined (fun _ x => x) (w.assignLocal text v) = w.unfold.assignLocal text v := by
  unfold Workspace.assignLocal Outline.assignLocal
  cases Address.localKey text with
  | error e => rfl
  | ok key =>
    obtain ⟨id, s, hid, hs, hcurrent, hset⟩ := h.exists_current
    simp only [Except.mapError, hid, Except.bind, hcurrent]
    rcases h.arena.write_unfold hs key v with ⟨b, hw, hb, hab, ht⟩ | ⟨e, hw, ht⟩
    · simp only [hw, ht, ← hset b hb hab]
      rfl
    · simp only [hw, ht, ← hset w.arena h.arena (Arena.agreesOff_self w.arena id)]
      rfl

/-! ### Operations that read and protect -/

/-- A name that has to lead to something is read alike, and the open scope is left alike for it. -/
theorem leaveFor_unfold (h : w.Sound) (name : String) :
    (∃ e, w.lookUp name = (.error e, w) ∧ w.unfold.leaveFor name = (.error e.code, w.unfold)) ∨
      ∃ (w' : Workspace V) (address : Address), w'.Sound ∧ w'.cursor = none ∧
        w.lookUp name = (w'.arena.lookUp address.text .root address.segments, w') ∧
        w.unfold.leaveFor name = (.ok address.segments, w'.unfold) := by
  unfold Workspace.lookUp Outline.leaveFor
  rw [address_unfold]
  cases w.address name with
  | error e => exact .inl ⟨e, rfl, rfl⟩
  | ok address =>
    obtain ⟨w', hw', c, hc⟩ := h.exists_popAnonymous
    simp only [Except.mapError, hw', ← h.unfold_popAnonymous hw']
    cases address.isAnonymous with
    | true => exact .inl ⟨_, rfl, rfl⟩
    | false => exact .inr ⟨w', address, c.sound h, hc, rfl, rfl⟩

theorem outlined_lookUp (h : w.Sound) (name : String) :
    outlined (fun a what => what.unfold a) (w.lookUp name) = w.unfold.lookUp name := by
  unfold Outline.lookUp
  rcases h.leaveFor_unfold name with ⟨e, hlook, hleave⟩ | ⟨w', address, h', hc, hlook, hleave⟩
  · rw [hlook, hleave]
    rfl
  · rw [hlook, hleave]
    simp only [outlined]
    rw [← h'.arena.lookUp_unfold address.text h'.arena.root]
    rfl

theorem treeAt_unfold (h : w.Sound) (name : String) :
    (∃ e w', w.policyTarget (some name) = (.error e, w') ∧
        w.unfold.treeAt name = (.error e.code, w'.unfold)) ∨
      ∃ id w' path, w.policyTarget (some name) = (.ok id, w') ∧ w'.Sound ∧ w'.cursor = none ∧
        w'.arena.resolve path = .ok id ∧
        w.unfold.treeAt name = (.ok (path, w'.arena.unfold id), w'.unfold) := by
  unfold Workspace.policyTarget Outline.treeAt
  rcases h.leaveFor_unfold name with ⟨e, hlook, hleave⟩ | ⟨w', address, h', hc, hlook, hleave⟩
  · simp only [hlook, hleave]
    exact .inl ⟨e, w, rfl, rfl⟩
  · have hl : w'.arena.Looking .root address.segments _ :=
      h'.arena.looking address.text h'.arena.root
    simp only [hlook, hleave, show w'.unfold.root = w'.arena.unfold .root from rfl,
      h'.arena.lookUp_unfold address.text h'.arena.root]
    revert hl
    generalize w'.arena.lookUp address.text .root address.segments = r
    intro hl
    rcases r with e | v | id | _
    · exact .inl ⟨e, w', rfl, rfl⟩
    · exact .inl ⟨_, w', rfl, rfl⟩
    · exact .inr ⟨id, w', _, rfl, h', hc, hl.follow rfl, rfl⟩
    · exact .inl ⟨_, w', rfl, rfl⟩

theorem outlined_policyOf (h : w.Sound) (name? : Option String) :
    outlined (fun _ p => p) (w.policyOf name?) = w.unfold.policyOf name? := by
  unfold Workspace.policyOf Outline.policyOf
  cases name? with
  | none =>
    obtain ⟨id, s, hid, hs, hcurrent, -⟩ := h.exists_current
    simp only [Workspace.policyTarget, hid, Arena.scope_eq hs, hcurrent, h.arena.policy_unfold hs]
    rfl
  | some name =>
    rcases h.treeAt_unfold name with ⟨e, w', hw, ht⟩ | ⟨id, w', path, hw, h', hc, hp, ht⟩
    · simp only [hw, ht]
      rfl
    · obtain ⟨s, hs⟩ := h'.arena.exists_of_resolve hp
      simp only [hw, ht, Arena.scope_eq hs, h'.arena.policy_unfold hs]
      rfl

theorem outlined_protect (h : w.Sound) (name? : Option String) (move : Policy → Policy) :
    outlined (fun _ x => x) (w.protect name? move) = w.unfold.protect name? move := by
  -- the tree of a scope that gets the policy it moves to
  have hmove : ∀ {a : Arena V} {id : ScopeId} {s : Scope V}, a.Sound → a.scopes[id]? = some s →
      (a.update id (·.restrict (move s.policy))).unfold id =
        (a.unfold id).restrict (move (a.unfold id).policy) := fun ha hs => by
    rw [ha.unfold_restrict hs, ha.policy_unfold hs]
  unfold Workspace.protect Outline.protect
  cases name? with
  | none =>
    obtain ⟨id, s, hid, hs, hcurrent, hset⟩ := h.exists_current
    have hb := h.arena.restrict hs (move s.policy)
    simp only [Workspace.policyTarget, hid, Arena.scope_eq hs, Except.bind, Arena.setPolicy_eq _ hs,
      hcurrent, ← hmove h.arena hs, ← hset _ hb (Arena.agreesOff_update _ id _)]
    rfl
  | some name =>
    rcases h.treeAt_unfold name with ⟨e, w', hw, ht⟩ | ⟨id, w', path, hw, h', hc, hp, ht⟩
    · simp only [hw, ht]
      rfl
    · obtain ⟨s, hs⟩ := h'.arena.exists_of_resolve hp
      have hroot := h'.arena.unfold_eq_modify (h'.arena.restrict hs (move s.policy))
        (Arena.agreesOff_update _ id _) (f := fun t => t.restrict (move t.policy))
        (hmove h'.arena hs) hp
      simp only [hw, ht, Arena.scope_eq hs, Except.bind, Arena.setPolicy_eq _ hs,
        unfold_of_global hc, ← hroot]
      exact outlined_of_global hc _ (.ok ())

end Sound

/-! ### Runs -/

theorem shown_reply {f : Arena V → α → β} {x : α → Reply V} {y : β → Answer V}
    {r : Except Fault α × Workspace V} {r' : Except Code β × Outline V} (hr : outlined f r = r')
    (hxy : ∀ a v, (x v).unfold a = y (f a v)) :
    shown (apply.reply x r) = Outline.apply.answer y r' := by
  subst hr
  obtain ⟨_ | v, w⟩ := r
  · rfl
  · simp only [shown, outlined, apply.reply, Outline.apply.answer, Except.map, Except.mapError, hxy]

/-- **An operation of a workspace is the operation of its outline.** -/
theorem Sound.shown_apply (h : w.Sound) (op : Operation V) :
    shown (w.apply op) = w.unfold.apply op := by
  cases op with
  | createNamed name => exact shown_reply (h.outlined_createNamed name) fun _ _ => rfl
  | assign name v => exact shown_reply (h.outlined_assign name v) fun _ _ => rfl
  | assignLocal text v => exact shown_reply (h.outlined_assignLocal text v) fun _ _ => rfl
  | lookUp name => exact shown_reply (h.outlined_lookUp name) fun _ _ => rfl
  | finalize name? => exact shown_reply (h.outlined_protect name? .finalized) fun _ _ => rfl
  | close name? => exact shown_reply (h.outlined_protect name? .closed) fun _ _ => rfl
  | policy name? => exact shown_reply (h.outlined_policyOf name?) fun _ _ => rfl
  | pop =>
    obtain ⟨w', hw', -⟩ := h.exists_popAnonymous
    simp only [Workspace.apply, hw', Outline.apply, ← h.unfold_popAnonymous hw']
    rfl

theorem Sound.shown_trace : ∀ (ops : List (Operation V)) {w : Workspace V}, w.Sound →
    (w.trace ops).map shown = w.unfold.trace ops
  | [], _, _ => rfl
  | op :: ops, w, h => by
    have hop := h.shown_apply op
    have ih := Sound.shown_trace ops ((h.apply op).changes.sound h)
    rw [trace, List.map_cons, Outline.trace, ih, ← hop]
    rfl

theorem unfold_ofPolicy (policy : Policy) (remembered : List String) :
    (ofPolicy policy remembered : Workspace V).unfold = .ofPolicy policy remembered :=
  rfl

/-- **A document is read into the tree that it describes.** Whatever the root's policy and the first
remembered segments, and whatever operations are done one after the other, each of them, done in the
arena and in the tree, gives the same answer: the same success or the same code of a fault, the same
value or policy, and scopes with the same in them all the way down. And before the first and after
each of them the tree that the arena unfolds to, the open tree with its path, and the remembered
segments are those of the outline. -/
theorem trace_eq_outline (policy : Policy) (remembered : List String) (ops : List (Operation V)) :
    (ofPolicy policy remembered : Workspace V).unfold = .ofPolicy policy remembered ∧
      ((ofPolicy policy remembered).trace ops).map shown =
        (Outline.ofPolicy policy remembered).trace ops := by
  refine ⟨unfold_ofPolicy policy remembered, ?_⟩
  rw [Sound.shown_trace ops (sound_ofPolicy policy remembered), unfold_ofPolicy]

end Workspace

end ScopedConfig
