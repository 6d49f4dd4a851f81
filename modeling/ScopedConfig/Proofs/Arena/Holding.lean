import Mathlib.Data.List.Induction
import ScopedConfig.Cursor
import ScopedConfig.Proofs.Table

/-!
# Who holds whom

A scope holds another one under a key or at a position of its list. In a sound arena the holder of
a scope is the one it was created in, a scope is held at one step at most, and a holder has a
smaller number than what it holds. So the scopes that paths lead to form a tree, and each of them
has exactly one path.

Soundness is said of every scope on its own: the only thing that a scope asks of the others is that
those it holds were created in it. An operation that rewrites one scope therefore has to account for
this scope alone.

Key definitions: `Arena.Holds`, `Arena.IsChild`, `Arena.SoundAt`, `Arena.Sound`.
Key theorems: `Arena.Sound.holds_unique`, `Arena.Sound.held_induction`, `Arena.Sound.follow_unique`,
`Arena.follow_append_iff`.
-/

namespace ScopedConfig

variable {V : Type}

/-- The scope that a step leads to. -/
def Scope.next? (s : Scope V) : Step → Option ScopeId
  | .key k => (s.find? k).bind Entry.scope?
  | .index i => s.appended[i]?

namespace Arena

/-- A scope holds another one at a step. -/
def Holds (a : Arena V) (id : ScopeId) (step : Step) (child : ScopeId) : Prop :=
  ∃ s, a.scopes[id]? = some s ∧ s.next? step = some child

/-- A scope was created in another one. -/
def IsChild (a : Arena V) (child parent : ScopeId) : Prop :=
  ∃ s, a.scopes[child]? = some s ∧ s.parent? = some parent

/-- What the scope with a number satisfies in a sound arena. -/
structure SoundAt (a : Arena V) (id : ScopeId) (s : Scope V) : Prop where
  id_eq : s.id = id
  parent_none_iff : s.parent? = none ↔ id = .root
  parent_lt : ∀ parent, s.parent? = some parent → parent < id
  sorted : s.entries.Sorted
  ascending : s.appended.Pairwise (· < ·)
  isChild : ∀ step child, s.next? step = some child → a.IsChild child id
  once : ∀ step step' child, s.next? step = some child → s.next? step' = some child → step = step'

/-- There is a root, and every scope satisfies what it has to. -/
structure Sound (a : Arena V) : Prop where
  root : ∃ s, a.scopes[ScopeId.root]? = some s
  scope : ∀ id s, a.scopes[id]? = some s → a.SoundAt id s

theorem IsChild.unique {a : Arena V} {child parent parent' : ScopeId}
    (h : a.IsChild child parent) (h' : a.IsChild child parent') : parent = parent' := by
  obtain ⟨s, hs, hp⟩ := h
  obtain ⟨s', hs', hp'⟩ := h'
  rw [hs] at hs'
  obtain rfl := Option.some.inj hs'
  rw [hp] at hp'
  exact Option.some.inj hp'

/-! ### One holder, one step -/

namespace Sound

variable {a : Arena V}

theorem isChild_of_holds (h : a.Sound) {id child : ScopeId} {step : Step}
    (hc : a.Holds id step child) : a.IsChild child id := by
  obtain ⟨s, hs, hn⟩ := hc
  exact (h.scope id s hs).isChild step child hn

theorem lt_of_isChild (h : a.Sound) {child parent : ScopeId} (hc : a.IsChild child parent) :
    parent < child := by
  obtain ⟨s, hs, hp⟩ := hc
  exact (h.scope child s hs).parent_lt parent hp

theorem lt_of_holds (h : a.Sound) {id child : ScopeId} {step : Step}
    (hc : a.Holds id step child) : id < child :=
  h.lt_of_isChild (h.isChild_of_holds hc)

/-- **A scope is held once.** -/
theorem holds_unique (h : a.Sound) {id id' child : ScopeId} {step step' : Step}
    (hc : a.Holds id step child) (hc' : a.Holds id' step' child) : id = id' ∧ step = step' := by
  obtain rfl : id = id' := (h.isChild_of_holds hc).unique (h.isChild_of_holds hc')
  obtain ⟨s, hs, hn⟩ := hc
  obtain ⟨s', hs', hn'⟩ := hc'
  rw [hs] at hs'
  obtain rfl := Option.some.inj hs'
  exact ⟨rfl, (h.scope id s hs).once step step' child hn hn'⟩

theorem not_holds_root (h : a.Sound) (id : ScopeId) (step : Step) : ¬a.Holds id step .root :=
  fun hc => Nat.not_lt_zero id (h.lt_of_holds hc)

/-- **Induction from what is held to what holds it.** What is true of a scope as soon as it is true
of all that the scope holds is true of every scope: what a scope holds has a greater number, and the
numbers end. -/
theorem held_induction (h : a.Sound) {P : ScopeId → Prop}
    (step : ∀ id s, a.scopes[id]? = some s →
      (∀ step child, s.next? step = some child → P child) → P id) :
    ∀ id s, a.scopes[id]? = some s → P id := by
  suffices hn : ∀ n id s, a.scopes.size ≤ id + n → a.scopes[id]? = some s → P id from
    fun id s hs => hn a.scopes.size id s (Nat.le_add_left ..) hs
  intro n
  induction n with
  | zero =>
    intro id s hn hs
    rw [show a.scopes[id]? = none from Array.getElem?_eq_none hn] at hs
    exact absurd hs (by simp)
  | succ n ih =>
    intro id s hn hs
    refine step id s hs fun st child hc => ?_
    have hholds : a.Holds id st child := ⟨s, hs, hc⟩
    obtain ⟨t, ht, -⟩ := h.isChild_of_holds hholds
    have hlt : id + 1 ≤ child := h.lt_of_holds hholds
    refine ih child t (Nat.le_trans hn ?_) ht
    rw [Nat.add_comm n, ← Nat.add_assoc]
    exact Nat.add_le_add_right hlt n

end Sound

/-! ### Paths -/

theorem stepFrom_eq_ok_iff {a : Arena V} {id child : ScopeId} {step : Step} :
    a.stepFrom id step = .ok child ↔ a.Holds id step child := by
  unfold stepFrom
  cases hs : a.scope id with
  | error e =>
    refine ⟨fun h => by simp at h, fun ⟨s, hs', _⟩ => ?_⟩
    rw [scope_eq_ok_iff.mpr hs'] at hs
    simp at hs
  | ok s =>
    have hs' := scope_eq_ok_iff.mp hs
    have hstep : (∃ t, a.scopes[id]? = some t ∧ t.next? step = some child) ↔
        s.next? step = some child := by simp [hs']
    rw [Holds, hstep]
    cases step with
    | key k => cases hn : (s.find? k).bind Entry.scope? <;> simp [Scope.next?, hn]
    | index i => cases hn : s.appended[i]? <;> simp [Scope.next?, hn]

theorem follow_cons_iff {a : Arena V} {id target : ScopeId} {step : Step} {path : List Step} :
    a.follow id (step :: path) = .ok target ↔
      ∃ next, a.Holds id step next ∧ a.follow next path = .ok target := by
  rw [follow]
  cases hs : a.stepFrom id step with
  | error e =>
    refine ⟨fun h => by simp at h, fun ⟨next, hn, _⟩ => ?_⟩
    rw [stepFrom_eq_ok_iff.mpr hn] at hs
    simp at hs
  | ok next =>
    refine ⟨fun h => ⟨next, stepFrom_eq_ok_iff.mp hs, h⟩, fun ⟨next', hn, h⟩ => ?_⟩
    rw [stepFrom_eq_ok_iff.mpr hn] at hs
    obtain rfl := Except.ok.inj hs
    exact h

theorem follow_append_iff {a : Arena V} {target : ScopeId} {path' : List Step} :
    ∀ {path : List Step} {id : ScopeId}, a.follow id (path ++ path') = .ok target ↔
      ∃ next, a.follow id path = .ok next ∧ a.follow next path' = .ok target
  | [], id => by simp [follow]
  | step :: path, id => by
    rw [List.cons_append, follow_cons_iff]
    refine ⟨fun ⟨m, hm, h⟩ => ?_, fun ⟨next, h, h'⟩ => ?_⟩
    · obtain ⟨next, h, h'⟩ := follow_append_iff.mp h
      exact ⟨next, follow_cons_iff.mpr ⟨m, hm, h⟩, h'⟩
    · obtain ⟨m, hm, h⟩ := follow_cons_iff.mp h
      exact ⟨m, hm, follow_append_iff.mpr ⟨next, h, h'⟩⟩

theorem follow_singleton_iff {a : Arena V} {id target : ScopeId} {step : Step} :
    a.follow id [step] = .ok target ↔ a.Holds id step target := by
  rw [follow_cons_iff]
  simp [follow]

/-- A path leads where it led as long as nothing on it is let go. -/
theorem follow_mono {a b : Arena V} (h : ∀ id step child, a.Holds id step child →
    b.Holds id step child) {target : ScopeId} : ∀ {path : List Step} {id : ScopeId},
    a.follow id path = .ok target → b.follow id path = .ok target
  | [], _, hp => hp
  | _ :: _, _, hp => by
    obtain ⟨next, hn, hp⟩ := follow_cons_iff.mp hp
    exact follow_cons_iff.mpr ⟨next, h _ _ _ hn, follow_mono h hp⟩

namespace Sound

variable {a : Arena V}

theorem follow_le (h : a.Sound) {target : ScopeId} : ∀ {path : List Step} {id : ScopeId},
    a.follow id path = .ok target → id ≤ target
  | [], _, hp => Nat.le_of_eq (Except.ok.inj hp)
  | _ :: _, _, hp => by
    obtain ⟨next, hn, hp⟩ := follow_cons_iff.mp hp
    exact Nat.le_trans (Nat.le_of_lt (h.lt_of_holds hn)) (h.follow_le hp)

theorem exists_of_follow (h : a.Sound) {target : ScopeId} : ∀ {path : List Step} {id : ScopeId},
    (∃ s, a.scopes[id]? = some s) → a.follow id path = .ok target →
      ∃ s, a.scopes[target]? = some s
  | [], _, hs, hp => Except.ok.inj hp ▸ hs
  | _ :: _, _, _, hp => by
    obtain ⟨next, hn, hp⟩ := follow_cons_iff.mp hp
    obtain ⟨s, hs, -⟩ := h.isChild_of_holds hn
    exact h.exists_of_follow ⟨s, hs⟩ hp

theorem exists_of_resolve (h : a.Sound) {target : ScopeId} {path : List Step}
    (hp : a.resolve path = .ok target) : ∃ s, a.scopes[target]? = some s :=
  h.exists_of_follow h.root hp

/-- **One path leads to a scope.** The paths are compared from their ends, where the holder of the
target is known. -/
theorem follow_unique (h : a.Sound) {id : ScopeId} {path : List Step} :
    ∀ {path' : List Step} {target : ScopeId}, a.follow id path = .ok target →
      a.follow id path' = .ok target → path = path' := by
  induction path using List.reverseRecOn with
  | nil =>
    intro path' target hp hp'
    obtain rfl := Except.ok.inj hp
    cases path' with
    | nil => rfl
    | cons step path' =>
      obtain ⟨next, hn, hp'⟩ := follow_cons_iff.mp hp'
      exact absurd (h.lt_of_holds hn) (Nat.not_lt.mpr (h.follow_le hp'))
  | append_singleton path step ih =>
    intro path' target hp hp'
    obtain ⟨holder, hq, hn⟩ := follow_append_iff.mp hp
    rw [follow_singleton_iff] at hn
    rcases List.eq_nil_or_concat path' with rfl | ⟨path', step', rfl⟩
    · obtain rfl := Except.ok.inj hp'
      exact absurd (h.lt_of_holds hn) (Nat.not_lt.mpr (h.follow_le hq))
    · rw [List.concat_eq_append] at hp' ⊢
      obtain ⟨holder', hq', hn'⟩ := follow_append_iff.mp hp'
      rw [follow_singleton_iff] at hn'
      obtain ⟨rfl, rfl⟩ := h.holds_unique hn hn'
      rw [ih hq hq']

end Sound

end Arena

end ScopedConfig
