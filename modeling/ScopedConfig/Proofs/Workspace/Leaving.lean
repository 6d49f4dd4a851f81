import ScopedConfig.Proofs.Workspace.Invariants

/-!
# Leaving the open scope goes unnoticed

An operation with a name leaves the open scope before it works, so it makes no difference to it
whether the scope was left before. The one that does not leave is the opening of a sibling of the
open scope: it looks at the scopes while the open one is not held by anybody yet, and keeps the path
of the cursor. It comes to the same, since the open scope that joins a list pushes nothing out, and
since one path leads to a scope. Only a name that cannot be read tells the two apart, because then
nothing is done at all.

Key definitions: `Operation.name?`, `Workspace.Unnoticed`, `Workspace.AtMostLeft`.
Key theorems: `Workspace.Sound.unnoticed`, `Workspace.run_leaving_unnoticed`.
-/

namespace ScopedConfig

variable {V α β : Type}

/-- The name that an operation is given. -/
def Operation.name? : Operation V → Option String
  | createNamed name => some name
  | assign name _ => some name
  | assignLocal _ _ => none
  | lookUp name => some name
  | finalize name? => name?
  | close name? => name?
  | policy name? => name?
  | pop => none

namespace Workspace

/-- What an operation comes to before and after the open scope is left: the same, or nothing where
its name cannot be read. -/
inductive Unnoticed (w w' : Workspace V) :
    Except Fault α × Workspace V → Except Fault α × Workspace V → Prop
  | unread {e : Fault} (malformed : e.kind = .malformed) :
      Unnoticed w w' (.error e, w) (.error e, w')
  | same (r : Except Fault α × Workspace V) : Unnoticed w w' r r

variable {w w' : Workspace V}

theorem Unnoticed.reply {r r' : Except Fault α × Workspace V} (u : Unnoticed w w' r r')
    (f : α → Reply V) : Unnoticed w w' (apply.reply f r) (apply.reply f r') := by
  cases u with
  | unread malformed => exact .unread malformed
  | same => exact .same _

theorem remembered_of_popAnonymous (hw : w.popAnonymous = .ok w') :
    w'.remembered = w.remembered := by
  obtain ⟨_, -, rfl⟩ := exists_of_map hw
  rfl

theorem address_of_popAnonymous (hw : w.popAnonymous = .ok w') (name : String) :
    w'.address name = w.address name := by
  rw [address, address, remembered_of_popAnonymous hw]

namespace Sound

theorem popAnonymous_again (h : w.Sound) (hw : w.popAnonymous = .ok w') :
    w'.Sound ∧ w'.cursor = none ∧ w'.popAnonymous = .ok w' := by
  obtain ⟨u, hu, c, hc⟩ := h.exists_popAnonymous
  obtain rfl := Except.ok.inj (hu.symm.trans hw)
  exact ⟨c.sound h, hc, (c.sound h).popAnonymous_of_global hc⟩

/-! ### One operation -/

theorem createNamed_unnoticed (h : w.Sound) (hw : w.popAnonymous = .ok w') (name : String) :
    Unnoticed w w' (w.createNamed name) (w'.createNamed name) := by
  obtain ⟨h', -, hw'⟩ := h.popAnonymous_again hw
  unfold Workspace.createNamed
  rw [address_of_popAnonymous hw]
  cases hn : w.address name with
  | error e => exact .unread (Address.kind_of_ofName hn)
  | ok address =>
    simp only
    split
    · rw [h.createAnonymous_eq address hw, h'.createAnonymous_eq address hw']
      exact .same _
    · simp only [hw, hw']
      exact .same _

theorem assign_unnoticed (h : w.Sound) (hw : w.popAnonymous = .ok w') (name : String) (v : V) :
    Unnoticed w w' (w.assign name v) (w'.assign name v) := by
  obtain ⟨-, -, hw'⟩ := h.popAnonymous_again hw
  unfold Workspace.assign
  rw [address_of_popAnonymous hw]
  cases hn : w.address name with
  | error e => exact .unread (Address.kind_of_ofName hn)
  | ok a =>
    cases ht : a.target with
    | error e =>
      simp only [Except.bind, ht]
      exact .unread (Address.kind_of_target ht)
    | ok target =>
      simp only [Except.bind, ht, hw, hw']
      exact .same _

theorem lookUp_unnoticed (h : w.Sound) (hw : w.popAnonymous = .ok w') (name : String) :
    Unnoticed w w' (w.lookUp name) (w'.lookUp name) := by
  obtain ⟨-, -, hw'⟩ := h.popAnonymous_again hw
  unfold Workspace.lookUp
  rw [address_of_popAnonymous hw]
  cases hn : w.address name with
  | error e => exact .unread (Address.kind_of_ofName hn)
  | ok a =>
    simp only
    split
    · exact .unread rfl
    · simp only [hw, hw']
      exact .same _

theorem policyTarget_unnoticed (h : w.Sound) (hw : w.popAnonymous = .ok w') (name : String) :
    Unnoticed w w' (w.policyTarget (some name)) (w'.policyTarget (some name)) := by
  have hl := h.lookUp_unnoticed hw name
  simp only [Workspace.policyTarget]
  generalize w.lookUp name = r at hl ⊢
  generalize w'.lookUp name = r' at hl ⊢
  cases hl with
  | unread malformed => exact .unread malformed
  | same => exact .same _

theorem policyOf_unnoticed (h : w.Sound) (hw : w.popAnonymous = .ok w') (name : String) :
    Unnoticed w w' (w.policyOf (some name)) (w'.policyOf (some name)) := by
  have ht := h.policyTarget_unnoticed hw name
  unfold Workspace.policyOf
  generalize w.policyTarget (some name) = r at ht ⊢
  generalize w'.policyTarget (some name) = r' at ht ⊢
  cases ht with
  | unread malformed => exact .unread malformed
  | same => exact .same _

theorem protect_unnoticed (h : w.Sound) (hw : w.popAnonymous = .ok w') (name : String)
    (move : Policy → Policy) :
    Unnoticed w w' (w.protect (some name) move) (w'.protect (some name) move) := by
  have ht := h.policyTarget_unnoticed hw name
  unfold Workspace.protect
  generalize w.policyTarget (some name) = r at ht ⊢
  generalize w'.policyTarget (some name) = r' at ht ⊢
  cases ht with
  | unread malformed => exact .unread malformed
  | same => exact .same _

/-- **An operation with a name does not notice that the open scope was left.** -/
theorem unnoticed (h : w.Sound) (hw : w.popAnonymous = .ok w') {op : Operation V} {name : String}
    (hname : op.name? = some name) : Unnoticed w w' (w.apply op) (w'.apply op) := by
  cases op with
  | createNamed _ => exact (h.createNamed_unnoticed hw _).reply _
  | assign _ v => exact (h.assign_unnoticed hw _ v).reply _
  | assignLocal text v => simp [Operation.name?] at hname
  | lookUp _ => exact (h.lookUp_unnoticed hw _).reply _
  | finalize name? =>
    obtain rfl : name? = some name := hname
    exact (h.protect_unnoticed hw name _).reply _
  | close name? =>
    obtain rfl : name? = some name := hname
    exact (h.protect_unnoticed hw name _).reply _
  | policy name? =>
    obtain rfl : name? = some name := hname
    exact (h.policyOf_unnoticed hw name).reply _
  | pop => simp [Operation.name?] at hname

end Sound

/-! ### Operations that only read -/

/-- At most the open scope was left. -/
def AtMostLeft (w u : Workspace V) : Prop :=
  u = w ∨ w.popAnonymous = .ok u

theorem AtMostLeft.eq {u : Workspace V} (hu : w.AtMostLeft u) (h : w.Sound)
    (hc : w.cursor = none) : u = w := by
  rcases hu with rfl | hpop
  · rfl
  · exact Except.ok.inj (hpop.symm.trans (h.popAnonymous_of_global hc))

theorem AtMostLeft.remembered {u : Workspace V} (hu : w.AtMostLeft u) :
    u.remembered = w.remembered := by
  rcases hu with rfl | hpop
  · rfl
  · exact remembered_of_popAnonymous hpop

theorem AtMostLeft.sound {u : Workspace V} (hu : w.AtMostLeft u) (h : w.Sound) : u.Sound := by
  rcases hu with rfl | hpop
  · exact h
  · exact (h.popAnonymous_again hpop).1

theorem atMostLeft_lookUp (w : Workspace V) (name : String) :
    w.AtMostLeft (w.lookUp name).2 := by
  unfold lookUp
  cases w.address name with
  | error e => exact .inl rfl
  | ok a =>
    simp only
    split
    · exact .inl rfl
    · cases hw : w.popAnonymous with
      | error e => exact .inl rfl
      | ok w' => exact .inr hw

theorem atMostLeft_policyTarget (w : Workspace V) (name? : Option String) :
    w.AtMostLeft (w.policyTarget name?).2 := by
  cases name? with
  | none => exact .inl rfl
  | some name =>
    have hl := w.atMostLeft_lookUp name
    simp only [policyTarget]
    revert hl
    rcases w.lookUp name with ⟨_ | (v | id | _), u⟩ <;> exact fun hl => hl

theorem atMostLeft_policyOf (w : Workspace V) (name? : Option String) :
    w.AtMostLeft (w.policyOf name?).2 := by
  have ht := w.atMostLeft_policyTarget name?
  unfold policyOf
  revert ht
  rcases w.policyTarget name? with ⟨_ | id, u⟩ <;> exact fun ht => ht

theorem exists_atMostLeft_protect (w : Workspace V) (name? : Option String)
    (move : Policy → Policy) : ∃ u, w.AtMostLeft u ∧ ((w.protect name? move).2 = u ∨
      ∃ id policy b, u.arena.setPolicy id policy = .ok b ∧
        (w.protect name? move).2 = { u with arena := b }) := by
  have ht := w.atMostLeft_policyTarget name?
  unfold protect
  revert ht
  rcases w.policyTarget name? with ⟨_ | id, u⟩ <;> intro ht
  · exact ⟨u, ht, .inl rfl⟩
  · refine ⟨u, ht, ?_⟩
    simp only
    cases hs : u.arena.scope id with
    | error e => exact .inl rfl
    | ok s =>
      simp only [Except.bind]
      cases hb : u.arena.setPolicy id (move s.policy) with
      | error e => exact .inl rfl
      | ok b => exact .inr ⟨id, move s.policy, b, hb, rfl⟩

namespace Sound

theorem lookUp_state (h : w.Sound) (hc : w.cursor = none) (name : String) :
    (w.lookUp name).2 = w :=
  (w.atMostLeft_lookUp name).eq h hc

theorem policyOf_state (h : w.Sound) (hc : w.cursor = none) (name : String) :
    (w.policyOf (some name)).2 = w :=
  (w.atMostLeft_policyOf (some name)).eq h hc

/-- **A sibling of the open scope is what is opened after the open scope was left.** One of the two
goes by the cursor, the other one walks. -/
theorem createNamed_sibling (h : w.Sound) (hw : w.popAnonymous = .ok w') {name : String}
    {address : Address} (ha : w.address name = .ok address) (hanon : address.isAnonymous = true)
    (hunder : w.isOpenUnder address.segments.dropLast = .ok true) :
    w.createNamed name = (w.remember address).openWith (w.cursor.reenter w.arena) ∧
      w'.createNamed name = (w'.remember address).openAt address.segments.dropLast ∧
      w.createNamed name = w'.createNamed name := by
  obtain ⟨h', -, hw'⟩ := h.popAnonymous_again hw
  have ha' : w'.address name = .ok address := by rw [address_of_popAnonymous hw, ha]
  have hwalk : w'.createNamed name = (w'.remember address).openAt address.segments.dropLast := by
    simp only [Workspace.createNamed, ha', hanon, if_true]
    exact h'.createAnonymous_eq address hw'
  have hstay : w.createNamed name = w.createAnonymous address := by
    simp only [Workspace.createNamed, ha, hanon, if_true]
  refine ⟨?_, hwalk, ?_⟩
  · rw [hstay, Workspace.createAnonymous]
    simp only [hunder]
    rfl
  · rw [hstay, hwalk]
    exact h.createAnonymous_eq address hw

end Sound

/-- **Leaving the open scope goes unnoticed.** After every run the open scope can be left, and an
operation with a name that can be read answers the same and ends in the same workspace whether it
was left before or not; a look-up and a question for a policy end just where it was left. This
includes a new sibling of the open scope, which is opened by the cursor before the scope is left and
by a walk afterwards. -/
theorem run_leaving_unnoticed (policy : Policy) (remembered : List String)
    (ops : List (Operation V)) (op : Operation V) (name : String) :
    let w := (ofPolicy policy remembered).run ops
    op.name? = some name → (∀ e, (w.apply op).1 = .error e → e.kind ≠ .malformed) →
    ∃ w', w.popAnonymous = .ok w' ∧ w'.apply op = w.apply op ∧
      (op = .lookUp name ∨ op = .policy (some name) → (w.apply op).2 = w') ∧
      ∀ address, w.address name = .ok address → address.isAnonymous = true →
        w.isOpenUnder address.segments.dropLast = .ok true →
        w.createNamed name = (w.remember address).openWith (w.cursor.reenter w.arena) ∧
          w'.createNamed name = (w'.remember address).openAt address.segments.dropLast ∧
          w.createNamed name = w'.createNamed name := by
  intro w hname hread
  have h : w.Sound := sound_run policy remembered ops
  obtain ⟨w', hw, -⟩ := h.exists_popAnonymous
  obtain ⟨h', hc, -⟩ := h.popAnonymous_again hw
  have hsame : w'.apply op = w.apply op := by
    have hu := h.unnoticed hw hname
    generalize w.apply op = r at hu hread ⊢
    generalize w'.apply op = r' at hu ⊢
    cases hu with
    | unread malformed => exact absurd malformed (hread _ rfl)
    | same => rfl
  refine ⟨w', hw, hsame, ?_, fun _ ha hanon hunder => h.createNamed_sibling hw ha hanon hunder⟩
  rw [← hsame]
  rintro (rfl | rfl)
  · exact h'.lookUp_state hc name
  · exact h'.policyOf_state hc name

/-- An entry is open under `list`, and the next one is opened as its sibling. -/
theorem leaving_unnoticed_by_sibling :
    let w : Workspace Nat := (ofPolicy .default []).run [.createNamed "list."]
    let op : Operation Nat := .createNamed "list."
    op.name? = some "list." ∧ (∀ e, (w.apply op).1 = .error e → e.kind ≠ .malformed) ∧
      w.isOpenUnder [.key "list"] = .ok true ∧
      ∃ w', w.popAnonymous = .ok w' ∧ w'.cursor = none ∧ w'.apply op = w.apply op := by
  intro w op
  have hread : ∀ e, (w.apply op).1 = .error e → e.kind ≠ .malformed := fun e he =>
    absurd he (by rw [show (w.apply op).1 = .ok .done from rfl]; simp)
  obtain ⟨w', hw, hsame, -⟩ := run_leaving_unnoticed .default [] [.createNamed "list."] op "list."
    rfl hread
  obtain rfl := Except.ok.inj ((show w.popAnonymous = .ok _ from rfl).symm.trans hw)
  exact ⟨rfl, hread, rfl, _, hw, rfl, hsame⟩

end Workspace

end ScopedConfig
