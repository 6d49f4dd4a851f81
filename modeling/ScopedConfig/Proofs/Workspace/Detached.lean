import ScopedConfig.Proofs.Arena.Finding
import ScopedConfig.Proofs.Workspace.Invariants

/-!
# Detached scopes are dead

A scope that was written over stays in the arena, with its parent link and with all it holds. But
nothing comes back to it. An operation writes into scopes that a path leads to and into the open
one, and what it lets in is a scope it has just created or the open one. So a scope that neither a
path nor the cursor leads to is never led to again, and it stays what it is.

Key definitions: `Arena.Reached`, `Workspace.Detached`.
Key theorems: `Arena.reached_of_holds_or`, `Workspace.Change.detached`,
`Workspace.run_detached_dead`.
-/

namespace ScopedConfig

variable {V : Type}

/-! ### What paths lead to -/

namespace Arena

/-- A path from the root leads to the scope. -/
def Reached (a : Arena V) (id : ScopeId) : Prop :=
  ∃ path, a.resolve path = .ok id

variable {a b : Arena V} {id : ScopeId}

theorem Reached.root (a : Arena V) : a.Reached .root :=
  ⟨[], rfl⟩

theorem Reached.onward {holder : ScopeId} {step : Step} (h : a.Reached holder)
    (hc : a.Holds holder step id) : a.Reached id := by
  obtain ⟨path, hp⟩ := h
  exact ⟨path ++ [step], follow_append_iff.mpr ⟨holder, hp, follow_singleton_iff.mpr hc⟩⟩

/-- **Induction along a path from the root.** -/
theorem Reached.induction {P : ScopeId → Prop} (root : P .root)
    (onward : ∀ holder step child, a.Reached holder → P holder → a.Holds holder step child →
      P child) (h : a.Reached id) : P id := by
  obtain ⟨path, hp⟩ := h
  induction path using List.reverseRecOn generalizing id with
  | nil =>
    obtain rfl := Except.ok.inj hp
    exact root
  | append_singleton path step ih =>
    obtain ⟨holder, hq, hn⟩ := follow_append_iff.mp hp
    exact onward holder step id ⟨path, hq⟩ (ih hq) (follow_singleton_iff.mp hn)

theorem Reached.eq_root_or (h : a.Reached id) :
    id = .root ∨ ∃ holder step, a.Holds holder step id :=
  h.induction (P := fun id => id = .root ∨ ∃ holder step, a.Holds holder step id) (.inl rfl)
    fun holder step _ _ _ hc => .inr ⟨holder, step, hc⟩

/-- **One scope that is let in brings in no other one**, as long as it holds none. -/
theorem reached_of_holds_or {x : ScopeId} (h : b.Reached id)
    (hin : ∀ holder step child, b.Holds holder step child → a.Holds holder step child ∨ child = x)
    (hbare : ∀ step child, ¬b.Holds x step child) : a.Reached id ∨ id = x := by
  refine h.induction (P := fun id => a.Reached id ∨ id = x) (.inl (.root a)) ?_
  rintro holder step child - (hr | rfl) hc
  · exact (hin holder step child hc).imp_left hr.onward
  · exact absurd hc (hbare step child)

theorem Reached.of_holds (h : b.Reached id)
    (hin : ∀ holder step child, b.Holds holder step child → a.Holds holder step child) :
    a.Reached id := by
  obtain ⟨path, hp⟩ := h
  exact ⟨path, follow_mono hin hp⟩

end Arena

/-! ### Detached scopes -/

namespace Workspace

/-- Neither a path from the root nor the cursor leads to the scope. -/
structure Detached (w : Workspace V) (id : ScopeId) : Prop where
  unreached : ¬w.arena.Reached id
  notOpen : ∀ o, w.cursor = some o → o.id ≠ id

variable {w w' : Workspace V} {id : ScopeId} {s : Scope V}

theorem Detached.ne_of_targets (hd : w.Detached id) {target : ScopeId} (ht : w.Targets target) :
    target ≠ id := by
  rintro rfl
  unfold Targets at ht
  split at ht
  · exact hd.unreached ht
  · rename_i o ho
    exact hd.notOpen o ho ht

/-- **A change leaves a detached scope as it is, and detached.** -/
theorem Change.detached (h : w.Sound) (c : Change w w') (hs : w.arena.scopes[id]? = some s)
    (hd : w.Detached id) : w'.arena.scopes[id]? = some s ∧ w'.Detached id := by
  have hlt : id < w.arena.size := Arena.lt_size hs
  cases c with
  | remember segments => exact ⟨hs, hd.unreached, hd.notOpen⟩
  | @write target t key v htarget scope allowed =>
    refine ⟨?_, fun hr => hd.unreached (hr.of_holds fun _ _ _ => Arena.of_holds_putValue scope),
      hd.notOpen⟩
    rw [← hs]
    exact Arena.getElem?_update_of_ne _ (hd.ne_of_targets htarget)
  | @sprout target t key global htarget scope allowed noScope =>
    have hscope := Arena.getElem?_sprout target key hs
    rw [if_neg (hd.ne_of_targets htarget)] at hscope
    refine ⟨hscope, fun hr => ?_, hd.notOpen⟩
    -- the new scope is the only one that comes in, and it is empty
    have hin : ∀ holder step child, (w.arena.sprout target key).Holds holder step child →
        w.arena.Holds holder step child ∨ child = w.arena.size :=
      fun _ _ _ hc => (Arena.of_holds_sprout scope hc).imp_right fun hnew => hnew.2.2
    have hbare : ∀ step child, ¬(w.arena.sprout target key).Holds w.arena.size step child := by
      rintro step child ⟨u, hu, hn⟩
      rw [Arena.getElem?_sprout_self key scope] at hu
      obtain rfl := Option.some.inj hu
      rw [Scope.next?_empty] at hn
      exact absurd hn (by simp)
    rcases Arena.reached_of_holds_or hr hin hbare with hr | rfl
    · exact hd.unreached hr
    · exact Nat.lt_irrefl _ hlt
  | @restrict target t policy htarget scope stricter =>
    refine ⟨?_, fun hr => hd.unreached (hr.of_holds fun _ _ _ =>
      (Arena.holds_update_iff _ scope fun _ => Scope.next?_restrict t policy _).mp), hd.notOpen⟩
    rw [← hs]
    exact Arena.getElem?_update_of_ne _ (hd.ne_of_targets htarget)
  | @enter path parent t global htarget scope isOpen =>
    refine ⟨Arena.getElem?_extend_of_some parent hs,
      fun hr => hd.unreached (hr.of_holds fun _ _ _ => Arena.holds_extend_iff.mp), ?_⟩
    rintro o ho rfl
    obtain rfl := Option.some.inj ho
    exact Nat.lt_irrefl _ hlt
  | @leave o parent cursor child =>
    have hl : o.LiveUnder w.arena parent := h.liveUnder cursor child
    obtain ⟨p, hp⟩ := hl.exists_parent h.arena
    have h' := (Change.leave cursor child).sound h
    have hne : parent ≠ id := fun he => hd.unreached ⟨o.parentPath, he ▸ hl.resolves⟩
    refine ⟨(Arena.getElem?_update_of_ne _ hne).trans hs, fun hr => ?_, fun _ ho => by simp at ho⟩
    -- the open scope is the only one that comes in, and it holds no other one
    have hbare : ∀ step child, ¬(w.arena.update parent (·.adopt o.id)).Holds o.id step child := by
      intro step child hc
      rcases Arena.of_holds_adopt hp hc with hc' | rfl
      · exact hl.bare step child hc'
      · exact absurd (h'.arena.lt_of_holds hc) (Nat.lt_irrefl _)
    rcases Arena.reached_of_holds_or hr (fun _ _ _ => Arena.of_holds_adopt hp) hbare with hr | rfl
    · exact hd.unreached hr
    · exact hd.notOpen o cursor rfl

theorem Changes.detached (h : w.Sound) (c : Changes w w') (hs : w.arena.scopes[id]? = some s)
    (hd : w.Detached id) : w'.arena.scopes[id]? = some s ∧ w'.Detached id := by
  induction c with
  | refl => exact ⟨hs, hd⟩
  | tail c c' ih => exact c'.detached (Changes.sound h c) ih.1 ih.2

/-- **Detached scopes are dead.** A scope that neither a path from the root nor the cursor leads to
after a run is led to by neither whatever is done further on, and its policy, its entries and its
list are what they were. -/
theorem run_detached_dead (policy : Policy) (remembered : List String)
    (ops more : List (Operation V)) (id : ScopeId) (s : Scope V) :
    let w := (ofPolicy policy remembered).run ops
    w.arena.scopes[id]? = some s → w.Detached id →
    (w.run more).arena.scopes[id]? = some s ∧ (w.run more).Detached id := by
  intro w hs hd
  have h : w.Sound := sound_run policy remembered ops
  exact (h.run more).detached h hs hd

/-- The scope at `a` is written over while it still holds one, and neither its name nor its path
leads back to it. -/
theorem detached_dead_of_value :
    let w : Workspace Nat := (ofPolicy .default []).run [.assign "a.b.c" 1, .assign "a" 2]
    let more : List (Operation Nat) := [.createNamed "a.b.", .assignLocal "c" 3, .assign "a.b.c" 4]
    let s : Scope Nat := ⟨1, some 0, .default, [("b", .scope 2)], []⟩
    w.arena.scopes[1]? = some s ∧ w.Detached 1 ∧
      (w.run more).arena.scopes[1]? = some s ∧ (w.run more).Detached 1 := by
  intro w more s
  have h : w.Sound := sound_run .default [] [.assign "a.b.c" 1, .assign "a" 2]
  have hs : w.arena.scopes[1]? = some s := rfl
  have hroot : w.arena.scopes[0]? = some ⟨0, none, .default, [("a", .value 2)], []⟩ := rfl
  have hd : w.Detached 1 := by
    refine ⟨fun hr => ?_, fun o ho => absurd ((show none = w.cursor from rfl).trans ho) (by simp)⟩
    -- only the root could hold it, and the root holds a value
    rcases hr.eq_root_or with h1 | ⟨holder, step, hc⟩
    · exact absurd h1 (by decide)
    · obtain rfl : holder = 0 := Nat.lt_one_iff.mp (h.arena.lt_of_holds hc)
      obtain ⟨r, hr, hn⟩ := hc
      obtain rfl := Option.some.inj (hroot.symm.trans hr)
      cases step with
      | key key =>
        simp only [Scope.next?, Scope.find?, Table.find?] at hn
        split at hn <;> simp [Entry.scope?] at hn
      | index i => simp [Scope.next?] at hn
  subst w
  exact ⟨hs, hd, run_detached_dead .default [] _ more 1 s hs hd⟩

end Workspace

end ScopedConfig
