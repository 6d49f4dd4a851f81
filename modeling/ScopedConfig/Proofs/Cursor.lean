import ScopedConfig.Proofs.Arena.Linking

/-!
# What the cursor does to an arena

Whatever the arena is, a call of the cursor looks before it writes: it follows the path that was
kept, and goes on only if that leads to the scope that the open one was created in. So all that is
written goes into this scope. A scope is opened in one that is open to anonymous scopes, and leaving
the open scope asks for no more than that its parent is found.

Key definitions: `Arena.Welcomes`, `OpenScope.StandsUnder`.
Key theorems: `Cursor.enter_eq_ok_iff`, `Cursor.reenter_eq_ok_iff`, `Cursor.pop_eq_ok_iff`.
-/

namespace ScopedConfig

variable {V : Type} {a : Arena V} {parent : ScopeId}

/-- The scope exists and is open to anonymous scopes. -/
def Arena.Welcomes (a : Arena V) (id : ScopeId) : Prop :=
  ∃ s, a.scopes[id]? = some s ∧ s.policy.isClosed = false

/-- The path of the open scope leads to the scope that it was created in. -/
structure OpenScope.StandsUnder (o : OpenScope) (a : Arena V) (parent : ScopeId) : Prop where
  resolves : a.resolve o.parentPath = .ok parent
  isChild : a.IsChild o.id parent

/-- **The parent of an open scope is found where its path leads**, and nowhere else. -/
theorem OpenScope.parent_eq_ok_iff {o : OpenScope} :
    o.parent a = .ok parent ↔ o.StandsUnder a parent := by
  constructor
  · intro h
    unfold OpenScope.parent at h
    cases hp : a.resolve o.parentPath with
    | error e => simp [hp] at h
    | ok found =>
      cases hs : a.scope o.id with
      | error e => simp [hp, hs] at h
      | ok s =>
        simp only [hp, hs] at h
        by_cases hparent : s.parent? = some found
        · rw [if_pos hparent] at h
          obtain rfl := Except.ok.inj h
          exact ⟨hp, s, Arena.scope_eq_ok_iff.mp hs, hparent⟩
        · rw [if_neg hparent] at h
          exact nomatch h
  · rintro ⟨hp, s, hs, hparent⟩
    simp only [OpenScope.parent, hp, Arena.scope_eq hs, hparent, if_true]

namespace Cursor

theorem ensureOpen_eq_ok_iff {id : ScopeId} : ensureOpen a id = .ok () ↔ a.Welcomes id := by
  constructor
  · intro h
    unfold ensureOpen at h
    cases hs : a.scope id with
    | error e => simp [hs] at h
    | ok s =>
      simp only [hs] at h
      cases hclosed : s.policy.isClosed with
      | true => simp [hclosed] at h
      | false => exact ⟨s, Arena.scope_eq_ok_iff.mp hs, hclosed⟩
  · rintro ⟨s, hs, hclosed⟩
    simp [ensureOpen, Arena.scope_eq hs, hclosed]

/-! ### Equations -/

variable {o : OpenScope} {path : List Step}

theorem enter_eq (hp : a.resolve path = .ok parent) (hw : a.Welcomes parent) :
    enter none a path = .ok (a.size, some ⟨path, a.size⟩, a.extend parent) := by
  obtain ⟨s, hs, -⟩ := id hw
  simp only [enter, hp, ensureOpen_eq_ok_iff.mpr hw, Arena.addChild_eq hs, Except.map]

theorem reenter_eq (ho : o.StandsUnder a parent) (hw : a.Welcomes parent) :
    reenter (some o) a = .ok (a.size, some ⟨o.parentPath, a.size⟩,
      (a.update parent (·.join o.id)).extend parent) := by
  obtain ⟨s, hs, -⟩ := id hw
  have hjoined := Arena.getElem?_update_self (·.join o.id) hs
  simp only [reenter, OpenScope.parent_eq_ok_iff.mpr ho, ensureOpen_eq_ok_iff.mpr hw,
    Arena.append_eq_join ho.isChild hs, Arena.addChild_eq hjoined, Arena.size_update, Except.map]

theorem pop_eq {s : Scope V} (ho : o.StandsUnder a parent) (hs : a.scopes[parent]? = some s) :
    pop (some o) a = .ok (some o.id, none, a.update parent (·.join o.id)) := by
  simp only [pop, OpenScope.parent_eq_ok_iff.mpr ho, Arena.append_eq_join ho.isChild hs, Except.map]

/-! ### When a call succeeds, and what it does -/

/-- **A scope is opened where a path leads**, while none is open, if it is welcome there. -/
theorem enter_eq_ok_iff {c : Cursor} {r : ScopeId × Cursor × Arena V} :
    c.enter a path = .ok r ↔ c = none ∧ ∃ parent, a.resolve path = .ok parent ∧
      a.Welcomes parent ∧ r = (a.size, some ⟨path, a.size⟩, a.extend parent) := by
  constructor
  · intro h
    cases c with
    | some o => exact nomatch h
    | none =>
      cases hp : a.resolve path with
      | error e => simp [enter, hp] at h
      | ok parent =>
        cases hopen : ensureOpen a parent with
        | error e => simp [enter, hp, hopen] at h
        | ok u =>
          have hw : a.Welcomes parent := ensureOpen_eq_ok_iff.mp hopen
          rw [enter_eq hp hw] at h
          exact ⟨rfl, parent, rfl, hw, (Except.ok.inj h).symm⟩
  · rintro ⟨rfl, parent, hp, hw, rfl⟩
    exact enter_eq hp hw

/-- **The open scope joins its parent's list and a new one is opened there**, if the path still
leads to the parent and the new scope is welcome. -/
theorem reenter_eq_ok_iff {c : Cursor} {r : ScopeId × Cursor × Arena V} :
    c.reenter a = .ok r ↔ ∃ o parent, c = some o ∧ o.StandsUnder a parent ∧ a.Welcomes parent ∧
      r = (a.size, some ⟨o.parentPath, a.size⟩,
        (a.update parent (·.join o.id)).extend parent) := by
  constructor
  · intro h
    cases c with
    | none => exact nomatch h
    | some o =>
      cases hp : o.parent a with
      | error e => simp [reenter, hp] at h
      | ok parent =>
        cases hopen : ensureOpen a parent with
        | error e => simp [reenter, hp, hopen] at h
        | ok u =>
          have ho : o.StandsUnder a parent := OpenScope.parent_eq_ok_iff.mp hp
          have hw : a.Welcomes parent := ensureOpen_eq_ok_iff.mp hopen
          rw [reenter_eq ho hw] at h
          exact ⟨o, parent, rfl, ho, hw, (Except.ok.inj h).symm⟩
  · rintro ⟨o, parent, rfl, ho, hw, rfl⟩
    exact reenter_eq ho hw

/-- **The open scope joins its parent's list**, if the path still leads to the parent. -/
theorem pop_eq_ok_iff (h : a.Linked) {c : Cursor} {r : Option ScopeId × Cursor × Arena V} :
    c.pop a = .ok r ↔ c = none ∧ r = (none, none, a) ∨
      ∃ o parent, c = some o ∧ o.StandsUnder a parent ∧
        r = (some o.id, none, a.update parent (·.join o.id)) := by
  constructor
  · intro hpop
    cases c with
    | none => exact .inl ⟨rfl, (Except.ok.inj hpop).symm⟩
    | some o =>
      cases hp : o.parent a with
      | error e => simp [pop, hp] at hpop
      | ok parent =>
        have ho : o.StandsUnder a parent := OpenScope.parent_eq_ok_iff.mp hp
        obtain ⟨s, hs⟩ := h.exists_parent ho.isChild
        rw [pop_eq ho hs] at hpop
        exact .inr ⟨o, parent, rfl, ho, (Except.ok.inj hpop).symm⟩
  · rintro (⟨rfl, rfl⟩ | ⟨o, parent, rfl, ho, rfl⟩)
    · rfl
    · obtain ⟨s, hs⟩ := h.exists_parent ho.isChild
      exact pop_eq ho hs

end Cursor

end ScopedConfig
