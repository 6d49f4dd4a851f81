import ScopedConfig.Proofs.Address.Faults
import ScopedConfig.Proofs.Arena.Peeking
import ScopedConfig.Proofs.Workspace.Change
import ScopedConfig.Workspace.Operation

/-!
# Operations as changes

In a sound workspace every operation, whether it succeeds or is refused, does nothing but changes,
and what it complains of is never a scope that does not exist or a cursor that lost its place. Both
are followed together: the cursor keeps its place because each operation leaves the open scope
before it touches anything else, and because a walk never lets go of a scope.

Key definitions: `Workspace.Yields`, `Workspace.Walked`.
Key theorems: `Workspace.Sound.exists_popAnonymous`, `Workspace.walked`, `Workspace.Sound.apply`,
`Workspace.Sound.run`.
-/

namespace ScopedConfig

namespace Workspace

variable {V α β : Type} {w w' : Workspace V}

/-- An operation ends where changes lead to, and does not complain of the library. -/
structure Yields (w : Workspace V) (r : Except Fault α × Workspace V) : Prop where
  changes : Changes w r.2
  consistent : ∀ e, r.1 = .error e → e.Consistent

namespace Yields

theorem done (c : Changes w w') (x : α) : w.Yields (.ok x, w') :=
  ⟨c, fun e he => absurd he (by simp)⟩

theorem refused (c : Changes w w') {e : Fault} (he : e.Consistent) :
    w.Yields ((.error e : Except Fault α), w') :=
  ⟨c, fun _ h => Except.error.inj h ▸ he⟩

theorem malformed {e : Fault} (he : e.kind = .malformed) :
    w.Yields ((.error e : Except Fault α), w) :=
  refused .refl (e.consistent_of_malformed he)

theorem after (c : Changes w w') {r : Except Fault α × Workspace V} (y : w'.Yields r) :
    w.Yields r :=
  ⟨c.trans y.changes, y.consistent⟩

theorem reply {r : Except Fault α × Workspace V} (y : w.Yields r) (f : α → Reply V) :
    w.Yields (apply.reply f r) :=
  ⟨y.changes, fun e he => y.consistent e (eq_error_of_map he)⟩

end Yields

/-! ### Leaving the open scope -/

namespace Sound

theorem popAnonymous_of_global (h : w.Sound) (hc : w.cursor = none) : w.popAnonymous = .ok w := by
  have hf := h.flag
  obtain ⟨arena, cursor, remembered, isUsingArray⟩ := w
  subst hc
  obtain rfl : isUsingArray = false := hf
  rfl

theorem popAnonymous_of_open (h : w.Sound) {o : OpenScope} {parent : ScopeId}
    (ho : w.cursor = some o) (hl : o.LiveUnder w.arena parent) :
    w.popAnonymous = .ok { w with
      arena := w.arena.update parent (·.adopt o.id), cursor := none, isUsingArray := false } := by
  rw [popAnonymous, ho, Cursor.pop]
  simp only [hl.parent_eq, hl.append_eq h.arena, Except.map]

/-- **The open scope can always be left.** -/
theorem exists_popAnonymous (h : w.Sound) :
    ∃ w', w.popAnonymous = .ok w' ∧ Changes w w' ∧ w'.cursor = none := by
  cases ho : w.cursor with
  | none => exact ⟨w, h.popAnonymous_of_global ho, .refl, ho⟩
  | some o =>
    obtain ⟨parent, hl⟩ := h.live o ho
    exact ⟨_, h.popAnonymous_of_open ho hl, .single (.leave ho hl.isChild), rfl⟩

theorem exists_currentScope (h : w.Sound) :
    ∃ id s, w.currentScope = .ok id ∧ w.Targets id ∧ w.arena.scopes[id]? = some s := by
  unfold currentScope Targets
  cases ho : w.cursor with
  | none =>
    obtain ⟨s, hs⟩ := h.arena.root
    exact ⟨.root, s, rfl, ⟨[], rfl⟩, hs⟩
  | some o =>
    obtain ⟨parent, hl⟩ := h.live o ho
    obtain ⟨s, hs, -⟩ := hl.isChild
    exact ⟨o.id, s, by rw [Cursor.current, hl.parent_eq]; rfl, rfl, hs⟩

end Sound

/-! ### Walks -/

/-- A walk from the end of a path does nothing but changes, and its end is where the path with the
path of the segments leads. -/
structure Walked (w : Workspace V) (path : List Step) (r : Except Fault ScopeId × Arena V) :
    Prop where
  changes : Changes w { w with arena := r.2 }
  consistent : ∀ e, r.1 = .error e → e.Consistent
  resolves : ∀ target, r.1 = .ok target → r.2.resolve path = .ok target

/-- **A walk only creates, and its end is where its segments lead.** The induction is on the
segments: each one is found, or a scope is created under it, and both keep the path behind. -/
theorem walked : ∀ (segments : List Segment) {w : Workspace V} {id : ScopeId} {path : List Step},
    w.Sound → w.cursor = none → w.arena.resolve path = .ok id →
      w.Walked (path ++ Address.path segments) (w.arena.walk id segments)
  | [], w, id, path, _, _, hp => by
    refine ⟨.refl, fun e he => absurd he (by simp [Arena.walk]), fun target ht => ?_⟩
    obtain rfl := Except.ok.inj ht
    rw [Address.path, List.flatMap_nil, List.append_nil]
    exact hp
  | segment :: rest, w, id, path, h, hc, hp => by
    obtain ⟨s, hs⟩ := h.arena.exists_of_resolve hp
    have hpath : path ++ Address.path (segment :: rest) =
        (path ++ segment.steps) ++ Address.path rest := by
      rw [Address.path, List.flatMap_cons, List.append_assoc]
      rfl
    have hx := h.arena.entering hs segment
    rw [Arena.walk, hpath]
    generalize w.arena.enter id segment = x at hx ⊢
    cases hx with
    | found hf => exact walked rest h hc (Arena.follow_append_iff.mpr ⟨id, hp, hf⟩)
    | @created t key ht allowed noScope =>
      have htarget : w.Targets id := by
        rw [Targets, hc]
        exact ⟨path, hp⟩
      have c : Change w { w with arena := w.arena.sprout id key } :=
        .sprout hc htarget ht allowed noScope
      -- the path behind is kept, and the new scope is one step further
      have hnext : (w.arena.sprout id key).resolve (path ++ [.key key]) = .ok w.arena.size :=
        Arena.follow_append_iff.mpr ⟨id,
          Arena.follow_mono (fun _ _ _ hh => Arena.holds_sprout ht noScope hh) hp,
          Arena.follow_singleton_iff.mpr (Arena.holds_sprout_self key ht)⟩
      have ih := walked rest (c.sound h) hc hnext
      exact ⟨.head c ih.changes, ih.consistent, ih.resolves⟩
    | refused hcons =>
      exact ⟨.refl, fun e he => Except.error.inj he ▸ hcons, fun target ht => absurd ht (by simp)⟩

theorem walked_root (h : w.Sound) (hc : w.cursor = none) (segments : List Segment) :
    w.Walked (Address.path segments) (w.arena.walk .root segments) :=
  @walked V segments w .root [] h hc rfl

theorem Sound.exists_of_walk (h : w.Sound) (hc : w.cursor = none) {segments : List Segment}
    {id : ScopeId} {b : Arena V} (hwalk : w.arena.walk .root segments = (.ok id, b)) :
    b.resolve (Address.path segments) = .ok id ∧ ∃ s, b.scopes[id]? = some s := by
  have hwalked := walked_root h hc segments
  rw [hwalk] at hwalked
  have hp := hwalked.resolves id rfl
  exact ⟨hp, (hwalked.changes.sound h).arena.exists_of_resolve hp⟩

/-! ### Operations -/

/-- What comes of the target of a policy. If there is none, all that is to be done with it ends in
the same fault. Otherwise it is a scope that exists, and nothing that is done with it fails. -/
inductive Targeted (w : Workspace V) (name? : Option String) : Prop
  | refused {e : Fault} {w' : Workspace V}
      (yields : w.Yields ((.error e : Except Fault ScopeId), w'))
      (target : w.policyTarget name? = (.error e, w'))
      (policy : w.policyOf name? = (.error e, w'))
      (protect : ∀ move, w.protect name? move = (.error e, w'))
  | found {id : ScopeId} {s : Scope V} {w' : Workspace V} (changes : Changes w w')
      (targets : w'.Targets id) (scope : w'.arena.scopes[id]? = some s)
      (target : w.policyTarget name? = (.ok id, w'))
      (policy : w.policyOf name? = (.ok s.policy, w'))
      (protect : ∀ move, w.protect name? move =
        (.ok (), { w' with arena := w'.arena.update id (·.restrict (move s.policy)) }))

namespace Sound

theorem createPath (h : w.Sound) (hc : w.cursor = none) (segments : List Segment) :
    w.Yields (w.createPath segments) := by
  have hw := walked_root h hc segments
  exact ⟨hw.changes, fun e he => hw.consistent e (eq_error_of_map he)⟩

theorem write {id : ScopeId} {s : Scope V} (target : w.Targets id)
    (hs : w.arena.scopes[id]? = some s) (key : String) (v : V) :
    (∃ a, w.arena.write id key v = .ok a ∧ Changes w { w with arena := a }) ∨
      ∃ e, w.arena.write id key v = .error e ∧ e.Consistent := by
  rcases Arena.write_cases hs key v with ⟨allowed, hw⟩ | ⟨-, -, hw⟩ | ⟨-, -, hw⟩
  · exact .inl ⟨_, hw, .single (.write v target hs allowed)⟩
  · exact .inr ⟨_, hw, by simp [Fault.Consistent, Fault.code]⟩
  · exact .inr ⟨_, hw, by simp [Fault.Consistent, Fault.code]⟩

theorem writeAt (h : w.Sound) (hc : w.cursor = none) (segments : List Segment) (key : String)
    (v : V) : w.Yields (w.writeAt segments key v) := by
  have hw := walked_root h hc segments
  unfold Workspace.writeAt
  revert hw
  rcases w.arena.walk .root segments with ⟨_ | id, arena⟩ <;> intro hw
  · exact .refused hw.changes (hw.consistent _ rfl)
  · have h' := hw.changes.sound h
    have hp := hw.resolves id rfl
    obtain ⟨s, hs⟩ := h'.arena.exists_of_resolve hp
    have htarget : Targets { w with arena := arena } id := by
      rw [Targets, hc]
      exact ⟨_, hp⟩
    rcases write htarget hs key v with ⟨a, ha, c⟩ | ⟨e, he, hcons⟩
    · simp only [show arena.write id key v = _ from ha]
      exact .done (hw.changes.trans c) ()
    · simp only [show arena.write id key v = _ from he]
      exact .refused hw.changes hcons

theorem assign (h : w.Sound) (name : String) (v : V) : w.Yields (w.assign name v) := by
  unfold Workspace.assign
  cases ha : (w.address name).bind Address.target with
  | error e =>
    refine .malformed ?_
    cases hn : w.address name with
    | error e' =>
      rw [hn] at ha
      obtain rfl := Except.error.inj ha
      exact Address.kind_of_ofName hn
    | ok a =>
      rw [hn] at ha
      exact Address.kind_of_target ha
  | ok p =>
    obtain ⟨w', hw', c, hc⟩ := h.exists_popAnonymous
    simp only [hw']
    exact .after c ((c.sound h).writeAt hc p.1 p.2 v)

theorem assignLocal (h : w.Sound) (text : String) (v : V) :
    w.Yields (w.assignLocal text v) := by
  unfold Workspace.assignLocal
  cases hk : Address.localKey text with
  | error e => exact .malformed (Address.kind_of_localKey hk)
  | ok key =>
    obtain ⟨id, s, hid, htarget, hs⟩ := h.exists_currentScope
    simp only [hid, Except.bind]
    rcases write htarget hs key v with ⟨a, ha, c⟩ | ⟨e, he, hcons⟩
    · simp only [ha]
      exact .done c ()
    · simp only [he]
      exact .refused .refl hcons

theorem enter_eq {a : Arena V} {path : List Step} {id : ScopeId} {s : Scope V}
    (hp : a.resolve path = .ok id) (hs : a.scopes[id]? = some s)
    (hopen : s.policy.isClosed = false) :
    Cursor.enter none a path = .ok (a.size, some ⟨path, a.size⟩, a.extend id) := by
  simp only [Cursor.enter, hp, Cursor.ensureOpen, Arena.scope_eq hs, hopen, Bool.false_eq_true,
    if_false, Arena.addChild_eq hs, Except.map]

theorem enter_eq_of_isClosed {a : Arena V} {path : List Step} {id : ScopeId} {s : Scope V}
    (hp : a.resolve path = .ok id) (hs : a.scopes[id]? = some s)
    (hclosed : s.policy.isClosed = true) :
    Cursor.enter none a path = .error (.appendToClosed (a.describe id)) := by
  simp only [Cursor.enter, hp, Cursor.ensureOpen, Arena.scope_eq hs, hclosed, if_true]

/-- Opening a scope where a path leads is a change, or refused by the policy. -/
theorem openWith_enter (h : w.Sound) (hc : w.cursor = none) {path : List Step} {id : ScopeId}
    (hp : w.arena.resolve path = .ok id) :
    w.Yields (w.openWith (w.cursor.enter w.arena path)) := by
  obtain ⟨s, hs⟩ := h.arena.exists_of_resolve hp
  rw [hc]
  cases hclosed : s.policy.isClosed with
  | true =>
    rw [enter_eq_of_isClosed hp hs hclosed]
    exact .refused .refl (by simp [Fault.Consistent, Fault.code])
  | false =>
    rw [enter_eq hp hs hclosed]
    exact .done (.single (.enter hc hp hs hclosed)) ()

theorem openAt (h : w.Sound) (hc : w.cursor = none) (segments : List Segment) :
    w.Yields (w.openAt segments) := by
  have hw := walked_root h hc segments
  unfold Workspace.openAt Workspace.createPath
  revert hw
  rcases w.arena.walk .root segments with ⟨_ | id, arena⟩ <;> intro hw
  · exact .refused hw.changes (hw.consistent _ rfl)
  · exact .after hw.changes ((hw.changes.sound h).openWith_enter hc (hw.resolves id rfl))

/-- A new sibling of the open scope: the open one joins the list of its parent, and the new one is
created where the same path leads. -/
theorem reenter_eq (h : w.Sound) {o : OpenScope} {parent : ScopeId} (ho : w.cursor = some o)
    (hl : o.LiveUnder w.arena parent) :
    w.cursor.reenter w.arena = .ok (w.arena.size, some ⟨o.parentPath, w.arena.size⟩,
      (w.arena.update parent (·.adopt o.id)).extend parent) := by
  obtain ⟨p, hp⟩ := hl.exists_parent h.arena
  have hp' : (w.arena.update parent (·.adopt o.id)).scopes[parent]? = some (p.adopt o.id) :=
    Arena.getElem?_update_self _ hp
  simp only [ho, Cursor.reenter, hl.parent_eq, Cursor.ensureOpen, Arena.scope_eq hp, hl.isOpen p hp,
    Bool.false_eq_true, if_false, hl.append_eq h.arena, Arena.addChild_eq hp', Except.map,
    Arena.size_update]

/-- **A sibling of the open scope is opened as any other anonymous scope.** The open scope that
joins the list pushes nothing out, so the walk finds what was peeked at, and since one path leads to
a scope the new path is the old one. -/
theorem createAnonymous_eq (h : w.Sound) (address : Address) (hw : w.popAnonymous = .ok w') :
    w.createAnonymous address = (w'.remember address).openAt address.segments.dropLast := by
  unfold Workspace.createAnonymous isOpenUnder Cursor.parent?
  cases ho : w.cursor with
  | none => simp only [Except.map, Option.isSome_none, Bool.false_and, hw]
  | some o =>
    obtain ⟨parent, hl⟩ := h.live o ho
    have hpop := h.popAnonymous_of_open ho hl
    cases hpeek : some parent == w.arena.peek? .root address.segments.dropLast with
    | false => simp only [hl.parent_eq, Except.map, hpeek, Bool.and_false, hw]
    | true =>
      obtain rfl := Except.ok.inj (hpop.symm.trans hw)
      obtain ⟨hne, hpath⟩ := Arena.peek?_eq_some_iff.mp (eq_of_beq hpeek).symm
      have hsame : Address.path address.segments.dropLast = o.parentPath :=
        h.arena.follow_unique hpath hl.resolves
      obtain ⟨p, hp⟩ := hl.exists_parent h.arena
      have hp' : (w.arena.update parent (·.adopt o.id)).scopes[parent]? = some (p.adopt o.id) :=
        Arena.getElem?_update_self _ hp
      have hpath' : (w.arena.update parent (·.adopt o.id)).resolve
          (Address.path address.segments.dropLast) = .ok parent :=
        Arena.follow_mono (fun _ _ _ hh => Arena.holds_adopt hh) hpath
      have hreenter := h.reenter_eq ho hl
      have henter := enter_eq hpath' hp' (hl.isOpen p hp)
      rw [Arena.size_update, hsame] at henter
      rw [ho] at hreenter
      simp only [hl.parent_eq, Except.map, hpeek, Option.isSome_some, Bool.and_true, remember, ho,
        hreenter, Workspace.openAt, Workspace.createPath, Arena.walk_of_follow hne hpath', hsame,
        henter, openWith]

theorem createAnonymous (h : w.Sound) (address : Address) :
    w.Yields (w.createAnonymous address) := by
  obtain ⟨w', hw', c, hc⟩ := h.exists_popAnonymous
  have c' : Change w' (w'.remember address) := .remember _
  rw [h.createAnonymous_eq address hw']
  exact .after (.tail c c') ((c'.sound (c.sound h)).openAt hc _)

theorem createNamed (h : w.Sound) (name : String) : w.Yields (w.createNamed name) := by
  unfold Workspace.createNamed
  cases hn : w.address name with
  | error e => exact .malformed (Address.kind_of_ofName hn)
  | ok address =>
    simp only
    split
    · exact h.createAnonymous address
    · obtain ⟨w', hw', c, hc⟩ := h.exists_popAnonymous
      have c' : Change w' (w'.remember address) := .remember _
      simp only [hw']
      exact .after (.tail c c') ((c'.sound (c.sound h)).createPath hc _)

theorem lookUp (h : w.Sound) (name : String) :
    w.Yields (w.lookUp name) ∧ ∀ id, (w.lookUp name).1 = .ok (.scope id) →
      (w.lookUp name).2.Targets id := by
  unfold Workspace.lookUp
  cases hn : w.address name with
  | error e => exact ⟨.malformed (Address.kind_of_ofName hn), fun id hi => absurd hi (by simp)⟩
  | ok address =>
    simp only
    split
    · exact ⟨.refused .refl (by simp [Fault.Consistent, Fault.code]),
        fun id hi => absurd hi (by simp)⟩
    · obtain ⟨w', hw', c, hc⟩ := h.exists_popAnonymous
      have h' := c.sound h
      have hl : w'.arena.Looking .root address.segments _ :=
        h'.arena.looking address.text h'.arena.root
      simp only [hw']
      refine ⟨⟨c, fun e he => hl.consistent he⟩, fun id hi => ?_⟩
      rw [Targets, hc]
      exact ⟨_, hl.follow hi⟩

theorem policyTarget (h : w.Sound) (name? : Option String) :
    w.Yields (w.policyTarget name?) ∧ ∀ id, (w.policyTarget name?).1 = .ok id →
      (w.policyTarget name?).2.Targets id := by
  cases name? with
  | none =>
    obtain ⟨id, s, hid, htarget, -⟩ := h.exists_currentScope
    simp only [Workspace.policyTarget, hid]
    exact ⟨.done .refl id, fun id' hi => Except.ok.inj hi ▸ htarget⟩
  | some name =>
    obtain ⟨y, ht⟩ := h.lookUp name
    simp only [Workspace.policyTarget]
    revert y ht
    rcases w.lookUp name with ⟨_ | (v | id | _), w'⟩ <;> intro y ht
    · exact ⟨.refused y.changes (y.consistent _ rfl), fun id hi => absurd hi (by simp)⟩
    · exact ⟨.refused y.changes (by simp [Fault.Consistent, Fault.code]),
        fun id hi => absurd hi (by simp)⟩
    · exact ⟨.done y.changes id, fun id' hi => Except.ok.inj hi ▸ ht id rfl⟩
    · exact ⟨.refused y.changes (by simp [Fault.Consistent, Fault.code]),
        fun id hi => absurd hi (by simp)⟩

theorem exists_of_targets (h : w.Sound) {id : ScopeId} (target : w.Targets id) :
    ∃ s, w.arena.scopes[id]? = some s := by
  unfold Targets at target
  split at target
  · obtain ⟨path, hp⟩ := target
    exact h.arena.exists_of_resolve hp
  · rename_i o ho
    obtain rfl := target
    obtain ⟨parent, hl⟩ := h.live o ho
    obtain ⟨s, hs, -⟩ := hl.isChild
    exact ⟨s, hs⟩

/-- **What is done with the target of a policy fails only if there is none.** -/
theorem targeted (h : w.Sound) (name? : Option String) : w.Targeted name? := by
  obtain ⟨y, ht⟩ := h.policyTarget name?
  rcases hr : w.policyTarget name? with ⟨e | id, w'⟩ <;> rw [hr] at y ht
  · refine .refused y hr ?_ fun move => ?_
    · rw [Workspace.policyOf, hr]
    · rw [Workspace.protect, hr]
  · obtain ⟨s, hs⟩ := (y.changes.sound h).exists_of_targets (ht id rfl)
    refine .found y.changes (ht id rfl) hs hr ?_ fun move => ?_
    · simp only [Workspace.policyOf, hr, Arena.scope_eq hs, Except.map]
    · simp only [Workspace.protect, hr, Arena.scope_eq hs, Except.bind, Arena.setPolicy_eq _ hs]

theorem policyOf (h : w.Sound) (name? : Option String) : w.Yields (w.policyOf name?) := by
  cases h.targeted name? with
  | refused yields target policy =>
    rw [policy]
    exact .refused yields.changes (yields.consistent _ rfl)
  | found changes targets scope target policy =>
    rw [policy]
    exact .done changes _

theorem protect (h : w.Sound) (name? : Option String) {move : Policy → Policy}
    (hmove : ∀ p, (move p).isAtLeast p = true) : w.Yields (w.protect name? move) := by
  cases h.targeted name? with
  | refused yields target policy protect =>
    rw [protect]
    exact .refused yields.changes (yields.consistent _ rfl)
  | found changes targets scope target policy protect =>
    rw [protect]
    exact .done (.tail changes (.restrict targets scope (hmove _))) ()

/-- **An operation does nothing but changes and does not complain of the library.** -/
theorem apply (h : w.Sound) (op : Operation V) : w.Yields (w.apply op) := by
  cases op with
  | createNamed name => exact (h.createNamed name).reply _
  | assign name v => exact (h.assign name v).reply _
  | assignLocal text v => exact (h.assignLocal text v).reply _
  | lookUp name => exact (h.lookUp name).1.reply _
  | finalize name? => exact (h.protect name? Policy.finalized_isAtLeast).reply _
  | close name? => exact (h.protect name? Policy.closed_isAtLeast).reply _
  | policy name? => exact (h.policyOf name?).reply _
  | pop =>
    obtain ⟨w', hw', c, -⟩ := h.exists_popAnonymous
    simp only [Workspace.apply, hw']
    exact .done c Reply.done

/-- **A run does nothing but changes.** -/
theorem run : ∀ (ops : List (Operation V)) {w : Workspace V}, w.Sound → Changes w (w.run ops)
  | [], _, _ => .refl
  | op :: ops, _, h => (h.apply op).changes.trans (run ops ((h.apply op).changes.sound h))

end Sound

end Workspace

end ScopedConfig
