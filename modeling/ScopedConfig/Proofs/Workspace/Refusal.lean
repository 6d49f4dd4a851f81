import ScopedConfig.Proofs.Address.Reading
import ScopedConfig.Proofs.Arena.Refusing
import ScopedConfig.Proofs.Workspace.Leaving

/-!
# What a refusal leaves

A name that cannot be read changes nothing. Otherwise an operation with a name has left the open
scope by the time it is refused, and that is all it has done, unless an index was out of range: a
walk is refused for a policy or for a value in its way only before it has created anything. An
operation without a name changes nothing when it is refused. The remembered segments move with a
new address, whether the scopes at it were created or not.

Key definitions: `Workspace.Unread`, `Workspace.Spared`.
Key theorems: `Workspace.Sound.openAt_spared`, `Workspace.Sound.writeAt_spared`,
`Workspace.run_refusal_intact`.
-/

namespace ScopedConfig.Workspace

variable {V α β : Type} {w w' : Workspace V}

/-- A name cannot be read, and nothing is done. -/
def Unread (w : Workspace V) (r : Except Fault α × Workspace V) : Prop :=
  ∃ e, e.kind = .malformed ∧ r = (.error e, w)

/-- What is refused is refused for the state of the scopes, and the workspace is left as it was
unless an index is out of range. -/
structure Spared (w : Workspace V) (r : Except Fault α × Workspace V) : Prop where
  kind : ∀ e, r.1 = .error e → e.kind = .violation
  state : ∀ e, r.1 = .error e → e.code ≠ .scopeIndexOutOfRange → r.2 = w
  remembered : r.2.remembered = w.remembered

theorem Unread.reply {r : Except Fault α × Workspace V} (u : w.Unread r) (f : α → Reply V) :
    w.Unread (apply.reply f r) := by
  obtain ⟨e, he, rfl⟩ := u
  exact ⟨e, he, rfl⟩

theorem Unread.fault {e : Fault} (u : w.Unread ((.error e : Except Fault α), w')) :
    w.Unread ((.error e : Except Fault β), w') := by
  obtain ⟨e', he, heq⟩ := u
  obtain ⟨rfl, rfl⟩ : e = e' ∧ w' = w := by simpa using heq
  exact ⟨e, he, rfl⟩

theorem not_unread_ok {x : α} : ¬w.Unread (.ok x, w') := by
  rintro ⟨e, -, heq⟩
  exact absurd heq (by simp)

namespace Spared

theorem done (x : α) (hr : w'.remembered = w.remembered) : w.Spared (.ok x, w') :=
  ⟨fun e he => absurd he (by simp), fun e he => absurd he (by simp), hr⟩

theorem refused {e : Fault} (he : e.kind = .violation) :
    w.Spared ((.error e : Except Fault α), w) :=
  ⟨fun _ h => Except.error.inj h ▸ he, fun _ _ _ => rfl, rfl⟩

/-- What was created in front of the index stays. -/
theorem outOfRange {e : Fault} (he : e.code = .scopeIndexOutOfRange)
    (hr : w'.remembered = w.remembered) : w.Spared ((.error e : Except Fault α), w') := by
  refine ⟨fun e' h => ?_, fun e' h hne => ?_, hr⟩
  · obtain rfl := Except.error.inj h
    rw [Fault.kind, he]
    rfl
  · obtain rfl := Except.error.inj h
    exact absurd he hne

theorem kind_ne {r : Except Fault α × Workspace V} (s : w.Spared r) {e : Fault}
    (he : r.1 = .error e) : e.kind ≠ .malformed := by
  rw [s.kind e he]
  decide

theorem state_of_mem {r : Except Fault α × Workspace V} (s : w.Spared r) {e : Fault}
    (he : r.1 = .error e)
    (hm : e.code ∈ [.scopeClosedAdd, .scopeFinalOverride, .scopeNotAScope, .scopeNotFound]) :
    r.2 = w := by
  refine s.state e he fun hc => ?_
  rw [hc] at hm
  exact absurd hm (by decide)

theorem reply {r : Except Fault α × Workspace V} (s : w.Spared r) (f : α → Reply V) :
    w.Spared (apply.reply f r) :=
  ⟨fun e he => s.kind e (eq_error_of_map he), fun e he => s.state e (eq_error_of_map he),
    s.remembered⟩

end Spared

namespace Sound

/-! ### While no scope is open -/

theorem createPath_spared (h : w.Sound) {segments : List Segment} (hne : .anonymous ∉ segments) :
    w.Spared (w.createPath segments) := by
  obtain ⟨s, hs⟩ := h.arena.root
  have hr := h.arena.reaching hs hne
  unfold Workspace.createPath
  generalize w.arena.walk .root segments = r at hr ⊢
  cases hr with
  | along target => exact .done () rfl
  | created scope fresh => exact .done () rfl
  | refused kind => exact .refused kind
  | outOfRange code => exact .outOfRange code rfl

/-- **A scope is not opened in a closed one, but a closed one was there before.** -/
theorem openAt_spared (h : w.Sound) (hc : w.cursor = none) {segments : List Segment}
    (hne : .anonymous ∉ segments) : w.Spared (w.openAt segments) := by
  obtain ⟨s, hs⟩ := h.arena.root
  have hr := h.arena.reaching hs hne
  have hwalked := walked_root h hc segments
  unfold Workspace.openAt Workspace.createPath
  generalize w.arena.walk .root segments = r at hr hwalked ⊢
  cases hr with
  | along target =>
    have hp := hwalked.resolves target rfl
    obtain ⟨t, ht⟩ := h.arena.exists_of_resolve hp
    cases hclosed : t.policy.isClosed with
    | true =>
      have henter := enter_eq_of_isClosed hp ht hclosed
      rw [← hc] at henter
      simp only [Except.map, henter, openWith]
      exact .refused rfl
    | false =>
      simp only [Except.map, hc, enter_eq hp ht hclosed, openWith]
      exact .done () rfl
  | created scope fresh =>
    have hopen : (Policy.default).isClosed = false := rfl
    simp only [Except.map, hc, enter_eq (hwalked.resolves _ rfl) scope (fresh.policy ▸ hopen),
      openWith]
    exact .done () rfl
  | refused kind => exact .refused kind
  | outOfRange code => exact .outOfRange code rfl

/-- **A value is not written where the policy forbids it, but such a scope was there before.** -/
theorem writeAt_spared (h : w.Sound) {segments : List Segment} (hne : .anonymous ∉ segments)
    (hc : w.cursor = none) (key : String) (v : V) : w.Spared (w.writeAt segments key v) := by
  obtain ⟨s, hs⟩ := h.arena.root
  have hr := h.arena.reaching hs hne
  have hwalked := walked_root h hc segments
  unfold Workspace.writeAt
  generalize w.arena.walk .root segments = r at hr hwalked ⊢
  cases hr with
  | along target =>
    obtain ⟨t, ht⟩ := h.arena.exists_of_resolve (hwalked.resolves target rfl)
    rcases Arena.write_cases ht key v with ⟨-, hw⟩ | ⟨-, -, hw⟩ | ⟨-, -, hw⟩
    · simp only [hw]
      exact .done () rfl
    · simp only [hw]
      exact .refused rfl
    · simp only [hw]
      exact .refused rfl
  | @created target t b scope fresh =>
    simp only [Arena.write_eq scope (fresh.allows key) v]
    exact .done () rfl
  | refused kind => exact .refused kind
  | outOfRange code => exact .outOfRange code rfl

/-! ### Operations with a name -/

theorem createNamed_spared (h : w.Sound) (hw : w.popAnonymous = .ok w') {name : String}
    {address : Address} (hn : w.address name = .ok address) :
    (w'.remember address).Spared (w.createNamed name) := by
  obtain ⟨h', hc, -⟩ := h.popAnonymous_again hw
  have hsound : (w'.remember address).Sound := Change.sound h' (.remember _)
  unfold Workspace.createNamed
  simp only [hn]
  cases hanon : address.isAnonymous with
  | true =>
    simp only [if_true, h.createAnonymous_eq address hw]
    exact hsound.openAt_spared hc (Address.marker_not_mem_dropLast hn)
  | false =>
    simp only [Bool.false_eq_true, if_false, hw]
    exact hsound.createPath_spared (Address.marker_not_mem hn hanon)

theorem createNamed_refusal (h : w.Sound) (hw : w.popAnonymous = .ok w') (name : String) :
    w.Unread (w.createNamed name) ∨
      ∃ address, w.address name = .ok address ∧
        (w'.remember address).Spared (w.createNamed name) := by
  cases hn : w.address name with
  | error e =>
    refine .inl ⟨e, Address.kind_of_ofName hn, ?_⟩
    simp only [Workspace.createNamed, hn]
  | ok address => exact .inr ⟨address, rfl, h.createNamed_spared hw hn⟩

theorem assign_spared (h : w.Sound) (hw : w.popAnonymous = .ok w') {name : String} {a : Address}
    {target : List Segment × String} (hn : w.address name = .ok a) (ht : a.target = .ok target)
    (v : V) : w'.Spared (w.assign name v) := by
  obtain ⟨h', hc, -⟩ := h.popAnonymous_again hw
  simp only [Workspace.assign, hn, Except.bind, ht, hw]
  exact h'.writeAt_spared (Address.marker_not_mem_target hn ht) hc target.2 v

theorem assign_refusal (h : w.Sound) (hw : w.popAnonymous = .ok w') (name : String) (v : V) :
    w.Unread (w.assign name v) ∨ w'.Spared (w.assign name v) := by
  cases hn : w.address name with
  | error e =>
    refine .inl ⟨e, Address.kind_of_ofName hn, ?_⟩
    simp only [Workspace.assign, hn, Except.bind]
  | ok a =>
    cases ht : a.target with
    | error e =>
      refine .inl ⟨e, Address.kind_of_target ht, ?_⟩
      simp only [Workspace.assign, hn, Except.bind, ht]
    | ok target => exact .inr (h.assign_spared hw hn ht v)

theorem lookUp_spared (h : w.Sound) (hw : w.popAnonymous = .ok w') {name : String} {a : Address}
    (hn : w.address name = .ok a) (hanon : a.isAnonymous = false) :
    w'.Spared (w.lookUp name) ∧ (w.lookUp name).2 = w' := by
  obtain ⟨h', -, -⟩ := h.popAnonymous_again hw
  simp only [Workspace.lookUp, hn, hanon, Bool.false_eq_true, if_false, hw]
  refine ⟨⟨fun e he => ?_, fun _ _ _ => rfl, rfl⟩, trivial⟩
  exact h'.arena.kind_of_lookUp a.text h'.arena.root (Address.marker_not_mem hn hanon) he

theorem lookUp_refusal (h : w.Sound) (hw : w.popAnonymous = .ok w') (name : String) :
    w.Unread (w.lookUp name) ∨ w'.Spared (w.lookUp name) ∧ (w.lookUp name).2 = w' := by
  cases hn : w.address name with
  | error e =>
    refine .inl ⟨e, Address.kind_of_ofName hn, ?_⟩
    simp only [Workspace.lookUp, hn]
  | ok a =>
    cases hanon : a.isAnonymous with
    | true =>
      refine .inl ⟨.anonymousTarget a.text, rfl, ?_⟩
      simp only [Workspace.lookUp, hn, hanon, if_true]
    | false => exact .inr (h.lookUp_spared hw hn hanon)

theorem policyTarget_refusal (h : w.Sound) (hw : w.popAnonymous = .ok w') (name : String) :
    w.Unread (w.policyTarget (some name)) ∨
      w'.Spared (w.policyTarget (some name)) ∧ (w.policyTarget (some name)).2 = w' := by
  have hl := h.lookUp_refusal hw name
  simp only [Workspace.policyTarget]
  generalize w.lookUp name = r at hl ⊢
  rcases hl with ⟨e, he, rfl⟩ | ⟨hs, hstate⟩
  · exact .inl ⟨e, he, rfl⟩
  · obtain ⟨result, u⟩ := r
    obtain rfl : u = w' := hstate
    rcases result with e | v | id | _
    · exact .inr ⟨.refused (hs.kind e rfl), rfl⟩
    · exact .inr ⟨.refused rfl, rfl⟩
    · exact .inr ⟨.done id rfl, rfl⟩
    · exact .inr ⟨.refused rfl, rfl⟩

theorem policyOf_refusal (h : w.Sound) (hw : w.popAnonymous = .ok w') (name : String) :
    w.Unread (w.policyOf (some name)) ∨ w'.Spared (w.policyOf (some name)) := by
  have ht := h.policyTarget_refusal hw name
  cases h.targeted (some name) with
  | refused yields target policy =>
    rw [target] at ht
    rw [policy]
    exact ht.imp (·.fault) fun ⟨hs, hstate⟩ => hstate ▸ .refused (hs.kind _ rfl)
  | found changes targets scope target policy =>
    rw [target] at ht
    rw [policy]
    exact .inr (.done _ (ht.resolve_left not_unread_ok).1.remembered)

theorem protect_refusal (h : w.Sound) (hw : w.popAnonymous = .ok w') (name : String)
    (move : Policy → Policy) :
    w.Unread (w.protect (some name) move) ∨ w'.Spared (w.protect (some name) move) := by
  have ht := h.policyTarget_refusal hw name
  cases h.targeted (some name) with
  | refused yields target policy protect =>
    rw [target] at ht
    rw [protect]
    exact ht.imp (·.fault) fun ⟨hs, hstate⟩ => hstate ▸ .refused (hs.kind _ rfl)
  | found changes targets scope target policy protect =>
    rw [target] at ht
    rw [protect]
    exact .inr (.done _ (ht.resolve_left not_unread_ok).1.remembered)

/-- **An operation with a name cannot read it, or is refused where the open scope was left**, with
the new address remembered if it is to create a scope. -/
theorem refusal (h : w.Sound) (hw : w.popAnonymous = .ok w') {op : Operation V} {name : String}
    (hname : op.name? = some name) :
    w.Unread (w.apply op) ∨ (∀ name, op ≠ .createNamed name) ∧ w'.Spared (w.apply op) ∨
      ∃ address, op = .createNamed name ∧ w.address name = .ok address ∧
        (w'.remember address).Spared (w.apply op) := by
  cases op with
  | createNamed name' =>
    obtain rfl : name' = name := Option.some.inj hname
    rcases h.createNamed_refusal hw name' with u | ⟨address, ha, s⟩
    · exact .inl (u.reply _)
    · exact .inr (.inr ⟨address, rfl, ha, s.reply _⟩)
  | assign _ v => exact (h.assign_refusal hw _ v).imp (·.reply _) fun s => .inl ⟨by simp, s.reply _⟩
  | assignLocal text v => simp [Operation.name?] at hname
  | lookUp _ => exact (h.lookUp_refusal hw _).imp (·.reply _) fun s => .inl ⟨by simp, s.1.reply _⟩
  | finalize name? =>
    obtain rfl : name? = some name := hname
    exact (h.protect_refusal hw name _).imp (·.reply _) fun s => .inl ⟨by simp, s.reply _⟩
  | close name? =>
    obtain rfl : name? = some name := hname
    exact (h.protect_refusal hw name _).imp (·.reply _) fun s => .inl ⟨by simp, s.reply _⟩
  | policy name? =>
    obtain rfl : name? = some name := hname
    exact (h.policyOf_refusal hw name).imp (·.reply _) fun s => .inl ⟨by simp, s.reply _⟩
  | pop => simp [Operation.name?] at hname

end Sound

/-! ### Operations without a name -/

theorem protect_state_of_error {move : Policy → Policy} {e : Fault}
    (he : (w.protect none move).1 = .error e) : (w.protect none move).2 = w := by
  simp only [Workspace.protect, policyTarget] at he ⊢
  cases hs : w.currentScope with
  | error e' => rfl
  | ok id =>
    simp only [hs] at he ⊢
    cases hset : (w.arena.scope id).bind fun s => w.arena.setPolicy id (move s.policy) with
    | error e' => rfl
    | ok arena => simp [hset] at he

/-- **A refused operation without a name changes nothing.** -/
theorem state_of_error {op : Operation V} (hname : op.name? = none) {e : Fault}
    (he : (w.apply op).1 = .error e) : (w.apply op).2 = w := by
  cases op with
  | createNamed name => simp [Operation.name?] at hname
  | assign name v => simp [Operation.name?] at hname
  | assignLocal text v =>
    have he := eq_error_of_map he
    show (w.assignLocal text v).2 = w
    unfold Workspace.assignLocal at he ⊢
    split
    · rfl
    · rename_i key hk
      simp only [hk] at he
      split
      · rfl
      · rename_i a ha
        simp [ha] at he
  | lookUp name => simp [Operation.name?] at hname
  | finalize name? =>
    obtain rfl : name? = none := hname
    exact protect_state_of_error (eq_error_of_map he)
  | close name? =>
    obtain rfl : name? = none := hname
    exact protect_state_of_error (eq_error_of_map he)
  | policy name? =>
    obtain rfl : name? = none := hname
    show (w.policyOf none).2 = w
    simp only [Workspace.policyOf, policyTarget]
    cases w.currentScope <;> rfl
  | pop =>
    simp only [Workspace.apply] at he ⊢
    cases hp : w.popAnonymous with
    | error e' => rfl
    | ok w' => simp [hp] at he

/-! ### After every run -/

/-- **A refusal leaves the scopes intact.** Whatever is refused after a run: if the text cannot be
read, the workspace is what it was. If a policy, a value in the way or a missing scope is the cause,
then scopes and cursor are what they are after the open scope is left, or what they were when the
operation has no name. Segments are remembered anew only by a creation whose name can be read, which
remembers the address it was refused. -/
theorem run_refusal_intact (policy : Policy) (remembered : List String) (ops : List (Operation V))
    (op : Operation V) (e : Fault) :
    let w := (ofPolicy policy remembered).run ops
    let after := (w.apply op).2
    (w.apply op).1 = .error e →
    (e.kind = .malformed → after = w) ∧
    (e.code ∈ [.scopeClosedAdd, .scopeFinalOverride, .scopeNotAScope, .scopeNotFound] →
      (op.name? = none → after = w) ∧
      (op.name? ≠ none → ∃ w', w.popAnonymous = .ok w' ∧ after.arena = w'.arena ∧
        after.cursor = w'.cursor ∧ after.isUsingArray = w'.isUsingArray)) ∧
    ((∀ name, op ≠ .createNamed name) → after.remembered = w.remembered) ∧
    ∀ name, op = .createNamed name → e.kind ≠ .malformed →
      ∃ address, w.address name = .ok address ∧
        after.remembered = Address.remembered address.text := by
  intro w after he
  have h : w.Sound := sound_run policy remembered ops
  obtain ⟨w', hw, -⟩ := h.exists_popAnonymous
  cases hname : op.name? with
  | none =>
    have hstate : after = w := state_of_error hname he
    refine ⟨fun _ => hstate, fun _ => ⟨fun _ => hstate, fun hne => absurd rfl hne⟩,
      fun _ => by rw [hstate], fun name hop => ?_⟩
    rw [hop] at hname
    exact absurd hname (by simp [Operation.name?])
  | some name =>
    rcases h.refusal hw hname with ⟨e', hk, hr⟩ | ⟨hop, hs⟩ | ⟨address, rfl, ha, hs⟩
    · -- the name cannot be read
      have hstate : after = w := congrArg Prod.snd hr
      obtain rfl : e' = e := Except.error.inj ((congrArg Prod.fst hr).symm.trans he)
      refine ⟨fun _ => hstate, fun hm => ?_, fun _ => by rw [hstate], fun _ _ hne => absurd hk hne⟩
      rw [Fault.kind] at hk
      simp only [List.mem_cons, List.not_mem_nil, or_false] at hm
      rcases hm with hm | hm | hm | hm <;> rw [hm] at hk <;> exact absurd hk (by decide)
    · refine ⟨fun hm => absurd hm (hs.kind_ne he),
        fun hm => ⟨fun hn => by simp at hn, fun _ => ⟨w', hw, ?_⟩⟩, fun _ => ?_,
        fun name' hop' => absurd hop' (hop name')⟩
      · rw [show after = w' from hs.state_of_mem he hm]
        exact ⟨rfl, rfl, rfl⟩
      · exact hs.remembered.trans (remembered_of_popAnonymous hw)
    · refine ⟨fun hm => absurd hm (hs.kind_ne he),
        fun hm => ⟨fun hn => by simp at hn, fun _ => ⟨w', hw, ?_⟩⟩,
        fun hop => absurd rfl (hop name), fun name' hop' _ => ⟨address, ?_, hs.remembered⟩⟩
      · rw [show after = w'.remember address from hs.state_of_mem he hm]
        exact ⟨rfl, rfl, rfl⟩
      · obtain rfl := Operation.createNamed.inj hop'
        exact ha

/-- The root is final, an entry is open under `list`, and a name leads through a value. -/
theorem refusal_intact_of_value :
    let w : Workspace Nat := (ofPolicy .default []).run
      [.assign "k" 1, .finalize none, .createNamed "list."]
    let op : Operation Nat := .assign "k.x" 2
    (w.apply op).1 = .error (.replaceFinal "k" "") ∧
      (∃ w', w.popAnonymous = .ok w' ∧ (w.apply op).2.arena = w'.arena ∧
        (w.apply op).2.cursor = w'.cursor ∧ (w.apply op).2.isUsingArray = w'.isUsingArray) ∧
      (w.apply op).2.remembered = ["list"] := by
  intro w op
  have he : (w.apply op).1 = .error (.replaceFinal "k" "") := rfl
  obtain ⟨-, hscopes, hsegments, -⟩ := run_refusal_intact .default []
    [.assign "k" 1, .finalize none, .createNamed "list."] op _ he
  exact ⟨he, (hscopes (by decide)).2 (by simp [op, Operation.name?]), hsegments (by simp [op])⟩

end ScopedConfig.Workspace
