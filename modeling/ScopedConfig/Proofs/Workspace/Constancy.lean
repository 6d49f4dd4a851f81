import ScopedConfig.Proofs.Workspace.Entries
import ScopedConfig.Proofs.Workspace.Loss

/-!
# Values that never change

A look-up goes from scope to scope by keys and by indices. A key of a final scope holds what it
holds for the rest of the run, and an index leads to the same scope for the rest of the run whatever
the policy is. So if every scope in which a look-up takes a key is final, the value it finds is
found under the same address ever after.

The entry that is open counts as appended here, because a look-up leaves it first.

Key definitions: `Segment.takesKey`, `Arena.keyHolders`, `Arena.Settled`.
Key theorems: `Arena.Finds.settled`, `Workspace.Sound.settled_run`,
`Workspace.run_final_way_constant`.
-/

namespace ScopedConfig

variable {V : Type}

/-- The segment leads through a key of the scope it is read in. -/
def Segment.takesKey : Segment → Bool
  | key _ => true
  | index list? _ => list?.isSome
  | anonymous => false

namespace Arena

/-- The scopes in which a look-up along segments takes a key. -/
def keyHolders (a : Arena V) (id : ScopeId) : List Segment → List ScopeId
  | [] => []
  | segment :: rest =>
    let further :=
      match a.next? id segment with
      | some next => keyHolders a next rest
      | none => []
    if segment.takesKey then id :: further else further

/-- What final scopes hold in the first arena they hold in the second, and no list of the first is
cut or rearranged. -/
structure Settled (a b : Arena V) : Prop where
  kept : ∀ (id : ScopeId) (s : Scope V), a.scopes[id]? = some s → s.policy.isFinal = true →
    ∃ t : Scope V, b.scopes[id]? = some t ∧
      ∀ key entry, s.find? key = some entry → t.find? key = some entry
  appended : ∀ p, a.appendedTo p <+: b.appendedTo p

variable {a b : Arena V} {id next : ScopeId} {segment : Segment} {rest : List Segment}

theorem mem_keyHolders_self (hk : segment.takesKey = true) :
    id ∈ a.keyHolders id (segment :: rest) := by
  rw [keyHolders, if_pos hk]
  exact List.mem_cons_self ..

theorem mem_keyHolders_of_next? (hn : a.next? id segment = some next) {other : ScopeId}
    (hm : other ∈ a.keyHolders next rest) : other ∈ a.keyHolders id (segment :: rest) := by
  rw [keyHolders]
  simp only [hn]
  split
  · exact List.mem_cons_of_mem _ hm
  · exact hm

theorem holds_index_iff {child : ScopeId} {i : Nat} :
    a.Holds id (.index i) child ↔ (a.appendedTo id)[i]? = some child := by
  rw [Holds, appendedTo]
  cases a.scopes[id]? with
  | none => simp
  | some s => simp [Scope.next?]

namespace Settled

theorem holds_key (h : a.Settled b) (hfinal : ∀ s, a.scopes[id]? = some s →
    s.policy.isFinal = true) {key : String} {child : ScopeId} (hc : a.Holds id (.key key) child) :
    b.Holds id (.key key) child := by
  obtain ⟨s, hs, hk⟩ := holds_key_iff.mp hc
  obtain ⟨t, ht, hkept⟩ := h.kept id s hs (hfinal s hs)
  exact holds_key_iff.mpr ⟨t, ht, hkept key _ hk⟩

theorem holds_index (h : a.Settled b) {i : Nat} {child : ScopeId}
    (hc : a.Holds id (.index i) child) : b.Holds id (.index i) child := by
  rw [holds_index_iff] at hc ⊢
  obtain ⟨hlt, rfl⟩ := List.getElem?_eq_some_iff.mp hc
  exact List.prefix_iff_getElem?.mp (h.appended id) i hlt

/-- A segment leads where it led, if the scope is final or the segment takes no key of it. -/
theorem next? (h : a.Settled b) (hfinal : segment.takesKey = true → ∀ s, a.scopes[id]? = some s →
    s.policy.isFinal = true) : a.next? id segment = some next → b.next? id segment = some next := by
  cases segment with
  | key key =>
    simp only [Arena.next?, peekKey_eq_some_iff]
    exact h.holds_key (hfinal rfl)
  | index list? i =>
    cases list? with
    | none =>
      simp only [Arena.next?, peekIndex_eq_some_iff]
      exact h.holds_index
    | some key =>
      rw [Arena.next?, Option.bind_eq_some_iff, Arena.next?, Option.bind_eq_some_iff]
      simp only [peekKey_eq_some_iff, peekIndex_eq_some_iff]
      rintro ⟨list, hl, hi⟩
      exact ⟨list, h.holds_key (hfinal rfl) hl, h.holds_index hi⟩
  | anonymous => simp [Arena.next?]

end Settled

/-- **A value that is found through keys of final scopes alone is found ever after.** The induction
is on the way to the value. -/
theorem Finds.settled {v : V} {holder : ScopeId} {key : String} {segments : List Segment}
    (h : a.Finds v holder key id segments) (hab : a.Settled b)
    (hfinal : ∀ other ∈ a.keyHolders id segments, ∀ s, a.scopes[other]? = some s →
      s.policy.isFinal = true) : b.Finds v holder key id segments := by
  induction h with
  | here scope held =>
    obtain ⟨t, ht, hkept⟩ := hab.kept _ _ scope (hfinal _ (mem_keyHolders_self rfl) _ scope)
    exact .here ht (hkept _ _ held)
  | onward step further ih =>
    refine .onward (hab.next? (fun hk => hfinal _ (mem_keyHolders_self hk)) step) (ih ?_)
    exact fun other hm => hfinal other (mem_keyHolders_of_next? step hm)

end Arena

namespace Workspace

variable {w w' u' : Workspace V}

theorem popAnonymous_of_lookUp {name : String} {found : Found V}
    (hl : (w.lookUp name).1 = .ok found) : w.popAnonymous = .ok (w.lookUp name).2 := by
  obtain ⟨address, ha, hanon⟩ := exists_of_lookUp hl
  simp only [lookUp, ha, hanon, Bool.false_eq_true, if_false] at hl ⊢
  cases hw : w.popAnonymous with
  | error e => simp [hw] at hl
  | ok w' => rfl

namespace Sound

/-- Where the open scope was left, every scope has the entries and the policy it had. -/
theorem scope_of_popAnonymous (h : w.Sound) (hw : w.popAnonymous = .ok w') {id : ScopeId}
    {s' : Scope V} (hs' : w'.arena.scopes[id]? = some s') :
    ∃ s, w.arena.scopes[id]? = some s ∧ s.entries = s'.entries ∧ s.policy = s'.policy := by
  cases ho : w.cursor with
  | none =>
    obtain rfl := Except.ok.inj ((h.popAnonymous_of_global ho).symm.trans hw)
    exact ⟨s', hs', rfl, rfl⟩
  | some o =>
    obtain ⟨parent, hl⟩ := h.live o ho
    obtain rfl := Except.ok.inj ((h.popAnonymous_of_open ho hl).symm.trans hw)
    by_cases hid : parent = id
    · subst hid
      obtain ⟨s, hs⟩ := hl.exists_parent h.arena
      rw [Arena.getElem?_update_self _ hs] at hs'
      obtain rfl := Option.some.inj hs'
      exact ⟨s, hs, rfl, rfl⟩
    · rw [Arena.getElem?_update_of_ne _ hid] at hs'
      exact ⟨s', hs', rfl, rfl⟩

/-- **What is looked up is settled for the rest of a run.** A look-up is made where the open scope
was left, which need not be a state of the run. So the entries of final scopes are followed along
the run itself, and the lists by what stands under each scope. -/
theorem settled_run (h : w.Sound) (more : List (Operation V)) (hw : w.popAnonymous = .ok w')
    (hu : (w.run more).popAnonymous = .ok u') : w'.arena.Settled u'.arena where
  kept id s' hs' hfinal := by
    obtain ⟨s, hs, hentries, hpolicy⟩ := h.scope_of_popAnonymous hw hs'
    have hrun : (w.run more).Sound := (h.run more).sound h
    obtain ⟨_, hpop, c, -⟩ := hrun.exists_popAnonymous
    obtain rfl := Except.ok.inj (hpop.symm.trans hu)
    obtain ⟨t, ht, hl⟩ := ((h.later_run more).trans (c.later hrun)) id s hs
    refine ⟨t, ht, fun key entry hk => hl.kept (hpolicy ▸ hfinal) key entry ?_⟩
    rwa [Scope.find?, hentries]
  appended p := by
    have hrun : (w.run more).Sound := (h.run more).sound h
    rw [h.appendedTo_popAnonymous hw, hrun.appendedTo_popAnonymous hu, h.entriesUnder_run p more]
    exact List.prefix_append ..

end Sound

/-- **A value behind final scopes never changes.** If an absolute name leads to a value after a run,
and every scope in which the look-up takes a key is final, then the name leads to this value
whatever is done further on. -/
theorem run_final_way_constant (policy : Policy) (remembered : List String)
    (ops more : List (Operation V)) (name : String) (address : Address) (v : V) :
    let w := (ofPolicy policy remembered).run ops
    let looked := (w.lookUp name).2
    Address.IsAbsolute name → w.address name = .ok address → (w.lookUp name).1 = .ok (.value v) →
    (∀ id ∈ looked.arena.keyHolders .root address.segments, ∀ s,
      looked.arena.scopes[id]? = some s → s.policy.isFinal = true) →
    ((w.run more).lookUp name).1 = .ok (.value v) := by
  intro w looked habs ha hlook hfinal
  have h : w.Sound := sound_run policy remembered ops
  have hw : w.popAnonymous = .ok looked := popAnonymous_of_lookUp hlook
  obtain ⟨u', hu, -⟩ := Sound.exists_popAnonymous ((h.run more).sound h)
  obtain ⟨address', ha', hanon⟩ := exists_of_lookUp hlook
  obtain rfl := Except.ok.inj (ha'.symm.trans ha)
  have hagain : (w.run more).address name = .ok address' :=
    (Address.ofName_of_isAbsolute habs _ _).trans ha
  obtain ⟨holder, key, hfound⟩ := (lookUp_eq_value_iff hw ha hanon v).mp hlook
  exact (lookUp_eq_value_iff hu hagain hanon v).mpr
    ⟨holder, key, hfound.settled (h.settled_run more hw hu) hfinal⟩

/-- The root and the first entry of `list` are final, and everything is tried to change the entry's
value. `list` itself is not final, because no key of it is taken. -/
theorem final_way_constant_of_entry :
    let w : Workspace Nat := (ofPolicy .default []).run
      [.createNamed "list.", .assignLocal "k" 1, .finalize none, .pop, .finalize none]
    let more : List (Operation Nat) := [.assign "list" 2, .assign "list[0].k" 3,
      .createNamed "list[0].k.x", .createNamed "list.", .assignLocal "k" 4, .close (some "list")]
    w.arena.keyHolders .root [.index (some "list") 0, .key "k"] = [0, 2] ∧
      ((w.run more).lookUp "list[0].k").1 = .ok (.value 1) := by
  intro w more
  have hholders : w.arena.keyHolders .root [.index (some "list") 0, .key "k"] = [0, 2] := rfl
  refine ⟨hholders, run_final_way_constant .default [] _ more "list[0].k"
    ⟨"list[0].k", [.index (some "list") 0, .key "k"]⟩ 1 (by decide) rfl rfl ?_⟩
  show ∀ id ∈ w.arena.keyHolders .root [.index (some "list") 0, .key "k"], _
  rw [hholders]
  intro id hid s hs
  simp only [List.mem_cons, List.not_mem_nil, or_false] at hid
  rcases hid with rfl | rfl
  · obtain rfl := Option.some.inj ((show w.arena.scopes[0]? = some _ from rfl).symm.trans hs)
    rfl
  · obtain rfl := Option.some.inj ((show w.arena.scopes[2]? = some _ from rfl).symm.trans hs)
    rfl

end Workspace

end ScopedConfig
