import ScopedConfig.Proofs.Address.Splicing
import ScopedConfig.Proofs.Workspace.Refusal

/-!
# Where an empty segment comes from

The segments that a workspace remembers are those of the address that the last creation was asked
for, so none but the last leaves a quote open. A refusal comes from the name that was given, from
what is asked for with the name, or from the state of the scopes, and only the first can be an empty
segment. So a name has one exactly where the last remembered segment leaves a quote open: its
leading dots take all the segments, and its content stands in that quote.

Key definitions: `Workspace.Complaint`.
Key theorems: `Workspace.Sound.complaint`, `Workspace.Sound.remembered_apply`,
`Workspace.run_emptySegment`.
-/

namespace ScopedConfig.Workspace

variable {V : Type} {w w' : Workspace V} {op : Operation V} {e : Fault}

/-! ### What a refusal comes from -/

/-- What an operation complains of. -/
inductive Complaint (w : Workspace V) (op : Operation V) (e : Fault) : Prop
  | name {name : String} (given : op.name? = some name) (unread : w.address name = .error e)
  /-- The name was read, and stands for no value or no scope. -/
  | target (code : e.code = .nameIndexTarget ∨ e.code = .nameAnonymousTarget)
  | localKey (code : e.code = .nameLocalKey)
  | scopes (kind : e.kind = .violation)

namespace Sound

theorem complaint_lookUp (h : w.Sound) {name : String} (hname : op.name? = some name)
    (he : (w.lookUp name).1 = .error e) : w.Complaint op e := by
  obtain ⟨w', hw, -⟩ := h.exists_popAnonymous
  cases hn : w.address name with
  | error e' =>
    simp only [Workspace.lookUp, hn] at he
    obtain rfl := Except.error.inj he
    exact .name hname hn
  | ok a =>
    cases hanon : a.isAnonymous with
    | true =>
      simp only [Workspace.lookUp, hn, hanon, if_true] at he
      exact .target (.inr (Except.error.inj he ▸ rfl))
    | false => exact .scopes ((h.lookUp_spared hw hn hanon).1.kind e he)

theorem complaint_policyTarget (h : w.Sound) {name? : Option String} (hname : op.name? = name?)
    (he : (w.policyTarget name?).1 = .error e) : w.Complaint op e := by
  cases name? with
  | none =>
    obtain ⟨id, s, hid, -⟩ := h.exists_currentScope
    rw [Workspace.policyTarget, hid] at he
    exact absurd he (by simp)
  | some name =>
    have hl : (w.lookUp name).1 = .error e → w.Complaint op e := h.complaint_lookUp hname
    simp only [Workspace.policyTarget] at he
    generalize w.lookUp name = r at he hl
    rcases r with ⟨e' | v | id | _, u⟩
    · obtain rfl := Except.error.inj he
      exact hl rfl
    · exact .scopes (Except.error.inj he ▸ rfl)
    · exact absurd he (by simp)
    · exact .scopes (Except.error.inj he ▸ rfl)

theorem complaint_policyOf (h : w.Sound) {name? : Option String} (hname : op.name? = name?)
    (he : (w.policyOf name?).1 = .error e) : w.Complaint op e := by
  cases h.targeted name? with
  | refused yields target policy =>
    rw [policy] at he
    obtain rfl := Except.error.inj he
    exact h.complaint_policyTarget hname (by rw [target])
  | found changes targets scope target policy =>
    rw [policy] at he
    exact absurd he (by simp)

theorem complaint_protect (h : w.Sound) {name? : Option String} (hname : op.name? = name?)
    {move : Policy → Policy} (he : (w.protect name? move).1 = .error e) : w.Complaint op e := by
  cases h.targeted name? with
  | refused yields target policy protect =>
    rw [protect] at he
    obtain rfl := Except.error.inj he
    exact h.complaint_policyTarget hname (by rw [target])
  | found changes targets scope target policy protect =>
    rw [protect] at he
    exact absurd he (by simp)

theorem complaint_createNamed (h : w.Sound) {name : String} (hname : op.name? = some name)
    (he : (w.createNamed name).1 = .error e) : w.Complaint op e := by
  obtain ⟨w', hw, -⟩ := h.exists_popAnonymous
  cases hn : w.address name with
  | error e' =>
    simp only [Workspace.createNamed, hn] at he
    obtain rfl := Except.error.inj he
    exact .name hname hn
  | ok address => exact .scopes ((h.createNamed_spared hw hn).kind e he)

theorem complaint_assign (h : w.Sound) {name : String} {v : V} (hname : op.name? = some name)
    (he : (w.assign name v).1 = .error e) : w.Complaint op e := by
  obtain ⟨w', hw, -⟩ := h.exists_popAnonymous
  cases hn : w.address name with
  | error e' =>
    simp only [Workspace.assign, hn, Except.bind] at he
    obtain rfl := Except.error.inj he
    exact .name hname hn
  | ok a =>
    cases ht : a.target with
    | error e' =>
      simp only [Workspace.assign, hn, Except.bind, ht] at he
      obtain rfl := Except.error.inj he
      exact .target (Address.code_of_target ht)
    | ok target => exact .scopes ((h.assign_spared hw hn ht v).kind e he)

theorem complaint_assignLocal (h : w.Sound) {text : String} {v : V}
    (he : (w.assignLocal text v).1 = .error e) : w.Complaint op e := by
  cases hk : Address.localKey text with
  | error e' =>
    simp only [Workspace.assignLocal, hk] at he
    obtain rfl := Except.error.inj he
    exact .localKey (Address.code_of_localKey hk)
  | ok key =>
    obtain ⟨id, s, hid, -, hs⟩ := h.exists_currentScope
    simp only [Workspace.assignLocal, hk, hid, Except.bind] at he
    rcases Arena.write_cases hs key v with ⟨-, hw⟩ | ⟨-, -, hw⟩ | ⟨-, -, hw⟩
    · simp [hw] at he
    · simp only [hw] at he
      exact .scopes (Except.error.inj he ▸ rfl)
    · simp only [hw] at he
      exact .scopes (Except.error.inj he ▸ rfl)

/-- **A refusal comes from the name, from what is asked for with it, or from the scopes.** -/
theorem complaint (h : w.Sound) (he : (w.apply op).1 = .error e) : w.Complaint op e := by
  cases op with
  | createNamed name => exact h.complaint_createNamed rfl (eq_error_of_map he)
  | assign name v => exact h.complaint_assign rfl (eq_error_of_map he)
  | assignLocal text v => exact h.complaint_assignLocal (eq_error_of_map he)
  | lookUp name => exact h.complaint_lookUp rfl (eq_error_of_map he)
  | finalize name? => exact h.complaint_protect rfl (eq_error_of_map he)
  | close name? => exact h.complaint_protect rfl (eq_error_of_map he)
  | policy name? => exact h.complaint_policyOf rfl (eq_error_of_map he)
  | pop =>
    obtain ⟨w', hw, -⟩ := h.exists_popAnonymous
    simp [Workspace.apply, hw] at he

/-- An empty segment comes from the name. -/
theorem address_of_emptySegment (h : w.Sound) (he : (w.apply op).1 = .error e)
    (hcode : e.code = .nameEmptySegment) :
    ∃ name, op.name? = some name ∧ w.address name = .error e := by
  cases h.complaint he with
  | name given unread => exact ⟨_, given, unread⟩
  | target code => rcases code with hc | hc <;> rw [hc] at hcode <;> exact absurd hcode (by decide)
  | localKey code =>
    rw [code] at hcode
    exact absurd hcode (by decide)
  | scopes kind =>
    rw [Fault.kind, hcode] at kind
    exact absurd kind (by decide)

end Sound

theorem apply_of_unread {name : String} (hname : op.name? = some name)
    (hn : w.address name = .error e) : w.apply op = (.error e, w) := by
  have hlookUp : w.lookUp name = (.error e, w) := by simp only [Workspace.lookUp, hn]
  have htarget : w.policyTarget (some name) = (.error e, w) := by
    simp only [Workspace.policyTarget, hlookUp]
  cases op with
  | createNamed _ =>
    obtain rfl := Option.some.inj hname
    simp only [apply, Workspace.createNamed, hn, apply.reply, Except.map]
  | assign _ v =>
    obtain rfl := Option.some.inj hname
    simp only [apply, Workspace.assign, hn, Except.bind, apply.reply, Except.map]
  | assignLocal text v => exact absurd hname (by simp [Operation.name?])
  | lookUp _ =>
    obtain rfl := Option.some.inj hname
    simp only [apply, hlookUp, apply.reply, Except.map]
  | finalize name? =>
    obtain rfl : name? = some name := hname
    simp only [apply, protect, htarget, apply.reply, Except.map]
  | close name? =>
    obtain rfl : name? = some name := hname
    simp only [apply, protect, htarget, apply.reply, Except.map]
  | policy name? =>
    obtain rfl : name? = some name := hname
    simp only [apply, policyOf, htarget, apply.reply, Except.map]
  | pop => exact absurd hname (by simp [Operation.name?])

/-! ### What is remembered -/

theorem remembered_of_name?_eq_none (hname : op.name? = none) :
    (w.apply op).2.remembered = w.remembered := by
  have hprotect : ∀ name? move, (w.protect name? move).2.remembered = w.remembered := by
    intro name? move
    obtain ⟨u, hu, hstate | ⟨_, _, _, -, hstate⟩⟩ := w.exists_atMostLeft_protect name? move
    · rw [hstate, hu.remembered]
    · rw [hstate]
      exact hu.remembered
  cases op with
  | createNamed name => exact absurd hname (by simp [Operation.name?])
  | assign name v => exact absurd hname (by simp [Operation.name?])
  | assignLocal text v =>
    show (w.assignLocal text v).2.remembered = w.remembered
    unfold Workspace.assignLocal
    split
    · rfl
    · split <;> rfl
  | lookUp name => exact absurd hname (by simp [Operation.name?])
  | finalize name? => exact hprotect name? _
  | close name? => exact hprotect name? _
  | policy name? => exact (w.atMostLeft_policyOf name?).remembered
  | pop =>
    simp only [apply]
    split
    · rfl
    · rename_i w' hw
      exact remembered_of_popAnonymous hw

namespace Sound

/-- **Segments are remembered anew of an address that was read.** -/
theorem remembered_apply (h : w.Sound) (op : Operation V) :
    (w.apply op).2.remembered = w.remembered ∨
      ∃ name address, op.name? = some name ∧ w.address name = .ok address ∧
        (w.apply op).2.remembered = Address.remembered address.text := by
  obtain ⟨w', hw, -⟩ := h.exists_popAnonymous
  cases hname : op.name? with
  | none => exact .inl (remembered_of_name?_eq_none hname)
  | some name =>
    rcases h.refusal hw hname with ⟨e, -, hr⟩ | ⟨-, hs⟩ | ⟨address, -, ha, hs⟩
    · rw [hr]
      exact .inl rfl
    · exact .inl (hs.remembered.trans (remembered_of_popAnonymous hw))
    · exact .inr ⟨name, address, rfl, ha, hs.remembered⟩

/-- **What is remembered after a run is retained.** -/
theorem retained_run : ∀ (ops : List (Operation V)) {w : Workspace V}, w.Sound →
    Address.Retained w.remembered → Address.Retained (w.run ops).remembered
  | [], _, _, hr => hr
  | op :: ops, w, h, hr => by
    refine retained_run ops ((h.apply op).changes.sound h) ?_
    rcases h.remembered_apply op with hsame | ⟨name, address, -, ha, hnew⟩
    · rw [hsame]
      exact hr
    · rw [hnew]
      exact Address.retained_remembered ha

end Sound

/-! ### After every run -/

/-- **Where an empty segment comes from.** After every run that started with nothing remembered, a
name is refused for an empty segment only if the last remembered segment leaves a quote open, and
the name has as many leading dots as segments are remembered and a content behind them. And wherever
the last remembered segment leaves a quote open there is such a name, with which every operation is
refused for an empty segment and does nothing. -/
theorem run_emptySegment (policy : Policy) (ops : List (Operation V)) :
    let w := (ofPolicy policy []).run ops
    (∀ op e, (w.apply op).1 = .error e → e.code = .nameEmptySegment →
      (∃ q, Address.LeavesOpen w.remembered q) ∧ ∃ name, op.name? = some name ∧
        Address.leadingDots name.toList = w.remembered.length ∧
          Address.behindDots name.toList ≠ []) ∧
    ((∃ q, Address.LeavesOpen w.remembered q) → ∃ name address, ∀ op, op.name? = some name →
      w.apply op = (.error (.emptySegment address), w)) := by
  intro w
  have h : w.Sound := sound_run policy [] ops
  have hr : Address.Retained w.remembered :=
    (sound_ofPolicy policy []).retained_run ops Address.retained_nil
  constructor
  · intro op e he hcode
    obtain ⟨name, hname, hn⟩ := h.address_of_emptySegment he hcode
    obtain ⟨hopen, hdots, hcontent⟩ := hr.leavesOpen_of_emptySegment hn hcode
    exact ⟨hopen, name, hname, hdots, hcontent⟩
  · rintro ⟨q, hopen⟩
    obtain ⟨name, address, hn⟩ := hr.exists_emptySegment hopen
    exact ⟨name, address, fun op hname => apply_of_unread hname hn⟩

/-- A scope `x'` was created, and a name takes the segment and has two dots in a quote. -/
theorem emptySegment_behind_open_quote :
    let w : Workspace Nat := empty.run [.createNamed "x'"]
    (w.apply (.lookUp ".'..'")).1 = .error (.emptySegment "x'.'..'") := by
  rfl

end ScopedConfig.Workspace
