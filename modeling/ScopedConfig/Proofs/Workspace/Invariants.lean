import ScopedConfig.Proofs.Workspace.Operation

/-!
# What holds after every run

A run starts with an empty root scope of any policy and any remembered segments, and goes on after
every refusal. After each run the scopes that are held form a tree, in which each scope that a path
leads to has that one path alone, and the cursor has not lost its place: the open scope is the last
one created, it is held by nobody and holds values alone, and the path to its parent leads to a
scope that is not closed. So the cursor always knows where it stands, the open scope can always be
left, and no operation complains of the library itself.

Key definitions: `Arena.IsTree`, `Workspace.CursorKept`.
Key theorems: `Workspace.run_isTree`, `Workspace.run_cursorKept`.
-/

namespace ScopedConfig

variable {V : Type}

theorem Workspace.sound_run (policy : Policy) (remembered : List String)
    (ops : List (Operation V)) : ((ofPolicy policy remembered).run ops).Sound :=
  ((sound_ofPolicy policy remembered).run ops).sound (sound_ofPolicy policy remembered)

/-! ### The tree of scopes -/

namespace Arena

/-- The scopes are numbered in place, each is created in one with a smaller number, and what is held
is held once and by the scope it was created in. -/
structure IsTree (a : Arena V) : Prop where
  root : ∃ s : Scope V, a.scopes[ScopeId.root]? = some s ∧ s.parent? = none
  numbered : ∀ (id : ScopeId) (s : Scope V), a.scopes[id]? = some s → s.id = id
  onlyRoot : ∀ (id : ScopeId) (s : Scope V), a.scopes[id]? = some s → s.parent? = none → id = .root
  parent_lt : ∀ (id : ScopeId) (s : Scope V) (parent : ScopeId),
    a.scopes[id]? = some s → s.parent? = some parent → parent < id
  /-- No key stands twice in a scope. -/
  keys : ∀ (id : ScopeId) (s : Scope V), a.scopes[id]? = some s → s.entries.Sorted
  /-- What is held exists and was created by its holder. -/
  held : ∀ id step child, a.Holds id step child →
    ∃ s : Scope V, a.scopes[child]? = some s ∧ s.parent? = some id
  /-- Not under two keys, not at two positions, not by two scopes. -/
  once : ∀ id step id' step' child, a.Holds id step child → a.Holds id' step' child →
    id = id' ∧ step = step'
  root_free : ∀ id step, ¬a.Holds id step .root
  ascending : ∀ (id : ScopeId) (s : Scope V), a.scopes[id]? = some s →
    s.appended.Pairwise (· < ·)
  /-- Whatever a path leads to has that path alone. -/
  path : ∀ id, (∃ path, a.resolve path = .ok id) → ∃ path, a.resolve path = .ok id ∧
    ∀ path', a.resolve path' = .ok id → path' = path

theorem Sound.isTree {a : Arena V} (h : a.Sound) : a.IsTree where
  root := by
    obtain ⟨s, hs⟩ := h.root
    exact ⟨s, hs, (h.scope _ s hs).parent_none_iff.mpr rfl⟩
  numbered id s hs := (h.scope id s hs).id_eq
  onlyRoot id s hs := (h.scope id s hs).parent_none_iff.mp
  parent_lt id s parent hs := (h.scope id s hs).parent_lt parent
  keys id s hs := (h.scope id s hs).sorted
  held _ _ _ := h.isChild_of_holds
  once _ _ _ _ _ := h.holds_unique
  root_free := h.not_holds_root
  ascending id s hs := (h.scope id s hs).ascending
  path := by
    rintro id ⟨path, hp⟩
    exact ⟨path, hp, fun path' hp' => h.follow_unique hp' hp⟩

end Arena

/-- **The scopes of every run form a tree.** -/
theorem Workspace.run_isTree (policy : Policy) (remembered : List String)
    (ops : List (Operation V)) : ((ofPolicy policy remembered).run ops).arena.IsTree :=
  (sound_run policy remembered ops).arena.isTree

/-! ### The cursor -/

/-- The cursor knows its place, and nothing that is asked of the workspace fails for another
reason. -/
structure Workspace.CursorKept (w : Workspace V) : Prop where
  flag : w.isUsingArray = true ↔ w.cursor ≠ none
  opened : ∀ o, w.cursor = some o → ∃ (parent : ScopeId) (s p : Scope V),
    w.arena.resolve o.parentPath = .ok parent ∧
    w.arena.scopes[o.id]? = some s ∧ s.parent? = some parent ∧
    w.arena.scopes[parent]? = some p ∧ p.policy.isClosed = false ∧
    (∀ (id : ScopeId) (t : Scope V), w.arena.scopes[id]? = some t →
      (∀ key, (key, Entry.scope o.id) ∉ t.entries) ∧ o.id ∉ t.appended) ∧
    (∀ key entry, (key, entry) ∈ s.entries → ∃ v, entry = .value v) ∧
    s.appended = [] ∧ o.id + 1 = w.arena.size
  current : ∃ id, w.cursor.current w.arena = .ok id
  parent? : ∃ parent?, w.cursor.parent? w.arena = .ok parent?
  pop : ∃ w', w.popAnonymous = .ok w'
  consistent : ∀ op e, (w.apply op).1 = .error e → e.code ≠ .scopeConsistency

namespace OpenScope.LiveUnder

variable {o : OpenScope} {a : Arena V} {parent : ScopeId}

theorem not_mem_entries (h : o.LiveUnder a parent) (ha : a.Sound) {id : ScopeId} {t : Scope V}
    (ht : a.scopes[id]? = some t) (key : String) : (key, Entry.scope o.id) ∉ t.entries := by
  intro hm
  have hk : t.find? key = some (.scope o.id) :=
    Table.find?_eq_some_of_mem (ha.scope id t ht).sorted hm
  exact h.free id (.key key) (Arena.holds_key ht hk)

theorem value_of_mem_entries (h : o.LiveUnder a parent) (ha : a.Sound) {s : Scope V}
    (hs : a.scopes[o.id]? = some s) {key : String} {entry : Entry V}
    (hm : (key, entry) ∈ s.entries) : ∃ v, entry = .value v := by
  have hk : s.find? key = some entry :=
    Table.find?_eq_some_of_mem (ha.scope o.id s hs).sorted hm
  cases entry with
  | value v => exact ⟨v, rfl⟩
  | scope child => exact absurd (Arena.holds_key hs hk) (h.bare (.key key) child)

theorem appended_eq_nil (h : o.LiveUnder a parent) {s : Scope V}
    (hs : a.scopes[o.id]? = some s) : s.appended = [] := by
  refine List.eq_nil_iff_forall_not_mem.mpr fun child hm => ?_
  obtain ⟨i, hi⟩ := Scope.next?_of_mem_appended hm
  exact h.bare (.index i) child ⟨s, hs, hi⟩

end OpenScope.LiveUnder

namespace Workspace.Sound

variable {w : Workspace V}

theorem cursorKept (h : w.Sound) : w.CursorKept where
  flag := by
    rw [h.flag]
    cases w.cursor <;> simp
  opened o ho := by
    obtain ⟨parent, hl⟩ := h.live o ho
    obtain ⟨s, hs, hp⟩ := hl.isChild
    obtain ⟨p, hparent⟩ := hl.exists_parent h.arena
    exact ⟨parent, s, p, hl.resolves, hs, hp, hparent, hl.isOpen p hparent,
      fun id t ht => ⟨hl.not_mem_entries h.arena ht, hl.not_mem_appended ht⟩,
      fun key entry => hl.value_of_mem_entries h.arena hs, hl.appended_eq_nil hs, hl.last⟩
  current := by
    obtain ⟨id, s, hid, -⟩ := h.exists_currentScope
    exact ⟨id, hid⟩
  parent? := by
    cases ho : w.cursor with
    | none => exact ⟨none, rfl⟩
    | some o =>
      obtain ⟨parent, hl⟩ := h.live o ho
      exact ⟨some parent, by rw [Cursor.parent?, hl.parent_eq]; rfl⟩
  pop := by
    obtain ⟨w', hw', -⟩ := h.exists_popAnonymous
    exact ⟨w', hw'⟩
  consistent op := (h.apply op).consistent

end Workspace.Sound

/-- **The cursor never loses its place.** -/
theorem Workspace.run_cursorKept (policy : Policy) (remembered : List String)
    (ops : List (Operation V)) : ((ofPolicy policy remembered).run ops).CursorKept :=
  (sound_run policy remembered ops).cursorKept

end ScopedConfig
