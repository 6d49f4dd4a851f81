import ScopedConfig.Proofs.Address.Faults
import ScopedConfig.Proofs.Cursor
import ScopedConfig.Proofs.Raw.Basic

/-!
# Calls of the cursor are done or not done

A call of the cursor on a raw arena writes more than once, and a step behind the first write might
fail. It does not: what was looked at before the first write is all that the later steps need. So
a call that fails leaves arena and cursor as they were, and a call that succeeds is the one that
the cursor does at once. What it writes goes into the scope that the path leads to at this moment;
for an open scope this is the one it was created in, which exists because the links of an arena
survive every call.

Key definitions: `Raw.settle`, `Raw.Linked`, `Raw.CursorAtomic`.
Key theorems: `Raw.enter_eq`, `Raw.reenter_eq`, `Raw.pop_eq`, `Raw.linked_run`,
`Raw.run_cursor_atomic`.
-/

namespace ScopedConfig.Raw

variable {V α β : Type}

/-! ### Steps in a row -/

theorem reading_bind (f : Arena V → Except Fault α) (next : α → Steps V β) (r : Raw V) :
    (reading f >>= next) r =
      match f r.arena with
      | .error e => .error e r
      | .ok x => next x r := by
  show EStateM.bind (reading f) next r = _
  unfold EStateM.bind reading
  cases f r.arena <;> rfl

theorem changing_bind (f : Arena V → Except Fault (α × Arena V)) (next : α → Steps V β)
    (r : Raw V) : (changing f >>= next) r =
      match f r.arena with
      | .error e => .error e r
      | .ok (x, a) => next x { r with arena := a } := by
  show EStateM.bind (changing f) next r = _
  unfold EStateM.bind changing
  cases f r.arena <;> rfl

/-! ### All or nothing -/

/-- How an answer of the cursor is taken over: a refusal leaves everything as it is. -/
def settle (r : Raw V) : Except Fault (α × Cursor × Arena V) → EStateM.Result Fault (Raw V) α
  | .error e => .error e r
  | .ok (x, c, a) => .ok x { r with arena := a, cursor := c }

theorem enter_eq (r : Raw V) (path : List Step) :
    enter path r = r.settle (r.cursor.enter r.arena path) := by
  obtain ⟨a, c, copies⟩ := r
  cases c with
  | some o => rfl
  | none =>
    show (reading (·.resolve path) >>= _) _ = _
    rw [reading_bind]
    cases hp : a.resolve path with
    | error e => simp only [Cursor.enter, hp, settle]
    | ok parent =>
      show (reading (Cursor.ensureOpen · parent) >>= _) _ = _
      rw [reading_bind]
      cases hopen : Cursor.ensureOpen a parent with
      | error e => simp only [Cursor.enter, hp, hopen, settle]
      | ok u =>
        have hw : a.Welcomes parent := Cursor.ensureOpen_eq_ok_iff.mp hopen
        obtain ⟨s, hs, -⟩ := id hw
        show (changing (·.addChild parent) >>= _) _ = _
        rw [changing_bind, Cursor.enter_eq hp hw]
        simp only [Arena.addChild_eq hs]
        rfl

/-- **Appending the open scope and opening another is done or not done.** The first write is behind
the last thing that can fail: the parent exists and is open, so the new scope can be created in
it. -/
theorem reenter_eq (r : Raw V) : reenter r = r.settle (r.cursor.reenter r.arena) := by
  obtain ⟨a, c, copies⟩ := r
  cases c with
  | none => rfl
  | some o =>
    show (reading o.parent >>= _) _ = _
    rw [reading_bind]
    cases hp : o.parent a with
    | error e => simp only [Cursor.reenter, hp, settle]
    | ok parent =>
      show (reading (Cursor.ensureOpen · parent) >>= _) _ = _
      rw [reading_bind]
      cases hopen : Cursor.ensureOpen a parent with
      | error e => simp only [Cursor.reenter, hp, hopen, settle]
      | ok u =>
        have ho : o.StandsUnder a parent := OpenScope.parent_eq_ok_iff.mp hp
        have hw : a.Welcomes parent := Cursor.ensureOpen_eq_ok_iff.mp hopen
        obtain ⟨s, hs, -⟩ := id hw
        have hjoined := Arena.getElem?_update_self (·.join o.id) hs
        show (changing (·.append o.id) >>= _) _ = _
        rw [changing_bind, Cursor.reenter_eq ho hw]
        simp only [Arena.append_eq_join ho.isChild hs]
        rw [changing_bind]
        have hextended := Arena.getElem?_extend_of_some parent hjoined
        simp only [Arena.addChild_eq hjoined, Arena.size_update]
        rw [reading_bind]
        simp only [Arena.scope_eq hextended]
        rfl

theorem pop_eq (r : Raw V) : pop r = r.settle (r.cursor.pop r.arena) := by
  obtain ⟨a, c, copies⟩ := r
  cases c with
  | none => rfl
  | some o =>
    show (reading o.parent >>= _) _ = _
    rw [reading_bind]
    cases hp : o.parent a with
    | error e => simp only [Cursor.pop, hp, settle]
    | ok parent =>
      show (changing (·.append o.id) >>= _) _ = _
      rw [changing_bind]
      cases happend : a.append o.id with
      | error e => simp only [Cursor.pop, hp, happend, Except.map, settle]
      | ok x =>
        simp only [Cursor.pop, hp, happend, Except.map, settle]
        rfl

/-! ### Links along a run -/

/-- The links hold in the arena and in every copy of it. -/
structure Linked (r : Raw V) : Prop where
  arena : r.arena.Linked
  copies : ∀ a ∈ r.copies, a.Linked

namespace Linked

variable {r : Raw V}

theorem changing (h : r.Linked) {f : Arena V → Except Fault (α × Arena V)}
    (hf : ∀ x b, f r.arena = .ok (x, b) → b.Linked) : (left (Raw.changing f r)).Linked := by
  unfold Raw.changing
  cases hx : f r.arena with
  | error e => exact h
  | ok x => exact ⟨hf x.1 x.2 hx, h.copies⟩

theorem settle (h : r.Linked) {x : Except Fault (α × Cursor × Arena V)}
    (hx : ∀ y c b, x = .ok (y, c, b) → b.Linked) : (left (r.settle x)).Linked := by
  cases x with
  | error e => exact h
  | ok x => exact ⟨hx x.1 x.2.1 x.2.2 rfl, h.copies⟩

/-- **A call keeps the links**, whether it fails or not. -/
theorem perform (h : r.Linked) (call : Call V) : (r.perform call).Linked := by
  cases call with
  | addChild parent => exact h.changing fun _ _ => h.arena.of_addChild
  | put id key entry => exact h.changing fun _ _ => h.arena.of_put
  | setPolicy id policy =>
    refine h.changing fun _ b hb => ?_
    obtain ⟨c, hc, hcb⟩ := exists_of_map hb
    obtain ⟨-, rfl⟩ := Prod.mk.inj hcb
    exact h.arena.of_setPolicy hc
  | append child => exact h.changing fun _ _ => h.arena.of_append
  | enter path =>
    rw [Raw.perform, enter_eq]
    refine h.settle fun _ _ b hb => ?_
    obtain ⟨-, parent, -, ⟨s, hs, -⟩, heq⟩ := Cursor.enter_eq_ok_iff.mp hb
    obtain ⟨-, -, rfl⟩ : _ ∧ _ ∧ b = r.arena.extend parent := by simpa using heq
    exact h.arena.extend hs
  | reenter =>
    rw [Raw.perform, reenter_eq]
    refine h.settle fun _ _ b hb => ?_
    obtain ⟨o, parent, -, ho, ⟨s, hs, -⟩, heq⟩ := Cursor.reenter_eq_ok_iff.mp hb
    obtain ⟨-, -, rfl⟩ : _ ∧ _ ∧ b = (r.arena.update parent (·.join o.id)).extend parent := by
      simpa using heq
    exact (h.arena.join ho.isChild).extend (Arena.getElem?_update_self _ hs)
  | pop =>
    rw [Raw.perform, pop_eq]
    refine h.settle fun _ _ b hb => ?_
    rcases (Cursor.pop_eq_ok_iff h.arena).mp hb with ⟨-, heq⟩ | ⟨o, parent, -, ho, heq⟩
    · obtain ⟨-, -, rfl⟩ : _ ∧ _ ∧ b = r.arena := by simpa using heq
      exact h.arena
    · obtain ⟨-, -, rfl⟩ : _ ∧ _ ∧ b = r.arena.update parent (·.join o.id) := by simpa using heq
      exact h.arena.join ho.isChild
  | toRoot => exact ⟨h.arena, h.copies⟩
  | save => exact ⟨h.arena, List.forall_mem_cons.mpr ⟨h.arena, h.copies⟩⟩
  | restore n =>
    refine ⟨?_, h.copies⟩
    -- a copy that was never put aside leaves the arena as it is
    show (r.copies[n]?.getD r.arena).Linked
    cases hn : r.copies[n]? with
    | none => exact h.arena
    | some a => exact h.copies a (List.mem_of_getElem? hn)

end Linked

/-- **Every run keeps the links.** -/
theorem linked_run {r : Raw V} (h : r.Linked) (calls : List (Call V)) : (r.run calls).Linked := by
  induction calls generalizing r with
  | nil => exact h
  | cons call calls ih => exact ih (h.perform call)

theorem linked_ofPolicy (policy : Policy) : (ofPolicy policy : Raw V).Linked :=
  ⟨Arena.linked_ofPolicy policy, List.forall_mem_nil _⟩

/-! ### What a call writes -/

/-- The calls of the cursor are done or not done, and write into the one scope that the path leads
to. -/
structure CursorAtomic (r : Raw V) : Prop where
  /-- Step by step the same is done as at once. -/
  atOnce : (∀ path, enter path r = r.settle (r.cursor.enter r.arena path)) ∧
    reenter r = r.settle (r.cursor.reenter r.arena) ∧ pop r = r.settle (r.cursor.pop r.arena)
  /-- A call that fails changes nothing. -/
  failed : ∀ e r', (∃ path, enter path r = .error e r') ∨ reenter r = .error e r' ∨
    pop r = .error e r' → r' = r
  /-- A new empty scope is created where the path leads, and the cursor stands in it. -/
  entered : ∀ path id r', enter path r = .ok id r' ↔ r.cursor = none ∧ ∃ parent,
    r.arena.resolve path = .ok parent ∧ r.arena.Welcomes parent ∧ id = r.arena.size ∧
      r' = { r with arena := r.arena.extend parent, cursor := some ⟨path, id⟩ }
  /-- The open scope joins the list of its parent, in which a new empty scope is created. -/
  reentered : ∀ id r', reenter r = .ok id r' ↔ ∃ o parent, r.cursor = some o ∧
    o.StandsUnder r.arena parent ∧ r.arena.Welcomes parent ∧ id = r.arena.size ∧
      r' = { r with
        arena := (r.arena.update parent (·.join o.id)).extend parent
        cursor := some ⟨o.parentPath, id⟩ }
  /-- The open scope joins the list of its parent, and nothing else is written. -/
  popped : ∀ id? r', pop r = .ok id? r' ↔ r.cursor = none ∧ id? = none ∧ r' = r ∨
    ∃ o parent, r.cursor = some o ∧ o.StandsUnder r.arena parent ∧ id? = some o.id ∧
      r' = { r with arena := r.arena.update parent (·.join o.id), cursor := none }

theorem settle_eq_error_iff {r r' : Raw V} {x : Except Fault (α × Cursor × Arena V)} {e : Fault} :
    r.settle x = .error e r' ↔ x = .error e ∧ r' = r := by
  cases x with
  | error e' =>
    rw [settle, EStateM.Result.error.injEq, Except.error.injEq, eq_comm (a := r)]
  | ok x => simp [settle]

theorem settle_eq_ok_iff {r r' : Raw V} {x : Except Fault (α × Cursor × Arena V)} {y : α} :
    r.settle x = .ok y r' ↔
      ∃ c a, x = .ok (y, c, a) ∧ r' = { r with arena := a, cursor := c } := by
  cases x with
  | error e => simp [settle]
  | ok x =>
    obtain ⟨z, c, a⟩ := x
    simp only [settle, EStateM.Result.ok.injEq, Except.ok.injEq, Prod.mk.injEq]
    constructor
    · rintro ⟨rfl, rfl⟩
      exact ⟨c, a, ⟨rfl, rfl, rfl⟩, rfl⟩
    · rintro ⟨_, _, ⟨rfl, rfl, rfl⟩, rfl⟩
      exact ⟨rfl, rfl⟩

variable {r r' : Raw V}

theorem eq_of_error {e : Fault} (h : (∃ path, enter path r = .error e r') ∨
    reenter r = .error e r' ∨ pop r = .error e r') : r' = r := by
  rcases h with ⟨path, h⟩ | h | h
  · rw [enter_eq] at h
    exact (settle_eq_error_iff.mp h).2
  · rw [reenter_eq] at h
    exact (settle_eq_error_iff.mp h).2
  · rw [pop_eq] at h
    exact (settle_eq_error_iff.mp h).2

theorem enter_eq_ok_iff {path : List Step} {id : ScopeId} :
    enter path r = .ok id r' ↔ r.cursor = none ∧ ∃ parent, r.arena.resolve path = .ok parent ∧
      r.arena.Welcomes parent ∧ id = r.arena.size ∧
        r' = { r with arena := r.arena.extend parent, cursor := some ⟨path, id⟩ } := by
  rw [enter_eq, settle_eq_ok_iff]
  simp only [Cursor.enter_eq_ok_iff]
  constructor
  · rintro ⟨c, a, ⟨hc, parent, hp, hw, heq⟩, rfl⟩
    obtain ⟨rfl, rfl, rfl⟩ : id = r.arena.size ∧ c = some ⟨path, r.arena.size⟩ ∧
      a = r.arena.extend parent := by simpa using heq
    exact ⟨hc, parent, hp, hw, rfl, rfl⟩
  · rintro ⟨hc, parent, hp, hw, rfl, rfl⟩
    exact ⟨_, _, ⟨hc, parent, hp, hw, rfl⟩, rfl⟩

theorem reenter_eq_ok_iff {id : ScopeId} :
    reenter r = .ok id r' ↔ ∃ o parent, r.cursor = some o ∧ o.StandsUnder r.arena parent ∧
      r.arena.Welcomes parent ∧ id = r.arena.size ∧ r' = { r with
        arena := (r.arena.update parent (·.join o.id)).extend parent
        cursor := some ⟨o.parentPath, id⟩ } := by
  rw [reenter_eq, settle_eq_ok_iff]
  simp only [Cursor.reenter_eq_ok_iff]
  constructor
  · rintro ⟨c, a, ⟨o, parent, hc, ho, hw, heq⟩, rfl⟩
    obtain ⟨rfl, rfl, rfl⟩ : id = r.arena.size ∧ c = some ⟨o.parentPath, r.arena.size⟩ ∧
      a = (r.arena.update parent (·.join o.id)).extend parent := by simpa using heq
    exact ⟨o, parent, hc, ho, hw, rfl, rfl⟩
  · rintro ⟨o, parent, hc, ho, hw, rfl, rfl⟩
    exact ⟨_, _, ⟨o, parent, hc, ho, hw, rfl⟩, rfl⟩

theorem pop_eq_ok_iff (h : r.Linked) {id? : Option ScopeId} :
    pop r = .ok id? r' ↔ r.cursor = none ∧ id? = none ∧ r' = r ∨
      ∃ o parent, r.cursor = some o ∧ o.StandsUnder r.arena parent ∧ id? = some o.id ∧
        r' = { r with arena := r.arena.update parent (·.join o.id), cursor := none } := by
  rw [pop_eq, settle_eq_ok_iff]
  simp only [Cursor.pop_eq_ok_iff h.arena]
  constructor
  · rintro ⟨c, a, ⟨hc, heq⟩ | ⟨o, parent, hc, ho, heq⟩, rfl⟩
    · obtain ⟨rfl, rfl, rfl⟩ : id? = none ∧ c = none ∧ a = r.arena := by simpa using heq
      exact .inl ⟨hc, rfl, by rw [← hc]⟩
    · obtain ⟨rfl, rfl, rfl⟩ : id? = some o.id ∧ c = none ∧
        a = r.arena.update parent (·.join o.id) := by simpa using heq
      exact .inr ⟨o, parent, hc, ho, rfl, rfl⟩
  · rintro (⟨hc, rfl, rfl⟩ | ⟨o, parent, hc, ho, rfl, rfl⟩)
    · exact ⟨none, r'.arena, .inl ⟨hc, rfl⟩, by rw [← hc]⟩
    · exact ⟨_, _, .inr ⟨o, parent, hc, ho, rfl⟩, rfl⟩

/-- **The cursor writes all or nothing, and only where its path leads.** After every run of calls,
failed ones and restored copies included: a call of the cursor that fails changes nothing. One that
leaves an open scope appends it, once and at the end, to the list of the scope that its path leads
to, which is the one it was created in. One that opens a scope creates it there, empty and with the
default policy, and needs the place to be open. Nothing else is written. -/
theorem run_cursor_atomic (policy : Policy) (calls : List (Call V)) :
    ((ofPolicy policy).run calls).CursorAtomic := by
  have h : ((ofPolicy policy).run calls).Linked := linked_run (linked_ofPolicy policy) calls
  exact {
    atOnce := ⟨enter_eq _, reenter_eq _, pop_eq _⟩
    failed := fun _ _ hfail => eq_of_error hfail
    entered := fun _ _ _ => enter_eq_ok_iff
    reentered := fun _ _ => reenter_eq_ok_iff
    popped := fun _ _ => pop_eq_ok_iff h }

end ScopedConfig.Raw
