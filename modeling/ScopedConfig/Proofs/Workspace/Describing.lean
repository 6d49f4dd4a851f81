import ScopedConfig.Proofs.Address.Rendering
import ScopedConfig.Proofs.Arena.Describing
import ScopedConfig.Proofs.Workspace.Detached

/-!
# Described addresses looked up

A scope that a path leads to is described by the address of its path, and every other number by the
mark of a detached scope: no path leads to the open scope, which nothing holds yet. A look-up of a
described address comes back to the scope exactly if the path can be addressed. An anonymous scope
that was opened in another anonymous scope has two indices in a row on its path: its description
writes them behind each other, and the look-up refuses what it cannot read as one segment.

Key theorems: `Workspace.run_describe`, `Workspace.Sound.lookUp_describe`,
`Workspace.run_described_looked_up`.
-/

namespace ScopedConfig.Workspace

variable {V : Type} {w : Workspace V}

/-! ### What is described -/

namespace Sound

theorem not_reached_of_cursor (h : w.Sound) {o : OpenScope} (ho : w.cursor = some o) :
    ¬w.arena.Reached o.id := by
  obtain ⟨parent, hl⟩ := h.live o ho
  intro hr
  rcases hr.eq_root_or with hroot | ⟨holder, step, hholds⟩
  · have hlt : parent < o.id := h.arena.lt_of_isChild hl.isChild
    rw [hroot] at hlt
    exact absurd hlt (Nat.not_lt_zero parent)
  · exact hl.free holder step hholds

theorem not_reached_of_none (h : w.Sound) {id : ScopeId} (hid : w.arena.scopes[id]? = none) :
    ¬w.arena.Reached id := by
  rintro ⟨path, hp⟩
  obtain ⟨s, hs⟩ := h.arena.exists_of_resolve hp
  exact absurd (hid.symm.trans hs) (by simp)

theorem describe_eq_detached (h : w.Sound) {id : ScopeId} (hid : ¬w.arena.Reached id) :
    w.arena.describe id = "<detached>" :=
  h.arena.describe_eq_detached fun path hp => hid ⟨path, hp⟩

end Sound

/-- **A description shows the one true path or none.** After every run: a scope that a path from the
root leads to has that path alone, and its description is the text that shows the path. What no path
leads to, the open scope and what the arena does not know are described as detached. -/
theorem run_describe (policy : Policy) (remembered : List String) (ops : List (Operation V))
    (id : ScopeId) :
    let w := (ofPolicy policy remembered).run ops
    (∀ path, w.arena.resolve path = .ok id →
      (∀ path', w.arena.resolve path' = .ok id → path' = path) ∧
      ∀ text, w.arena.describe id = text ↔ Step.Rendered path text) ∧
    (¬w.arena.Reached id ∨ (∃ o, w.cursor = some o ∧ o.id = id) ∨ w.arena.scopes[id]? = none →
      w.arena.describe id = "<detached>") := by
  intro w
  have h : w.Sound := sound_run policy remembered ops
  refine ⟨fun path hp => ⟨fun path' hp' => h.arena.follow_unique hp' hp, fun text => ?_⟩, ?_⟩
  · rw [h.arena.describe_eq hp, Step.rendered_iff]
  · rintro (hid | ⟨o, ho, rfl⟩ | hid)
    · exact h.describe_eq_detached hid
    · exact h.describe_eq_detached (h.not_reached_of_cursor ho)
    · exact h.describe_eq_detached (h.not_reached_of_none hid)

/-! ### Descriptions that are looked up -/

namespace Sound

/-- **The description of a scope leads back to it**, if its path can be addressed. -/
theorem lookUp_describe (h : w.Sound) (hc : w.cursor = none) {path : List Step} {id : ScopeId}
    (hp : w.arena.resolve path = .ok id) (hne : path ≠ [])
    (hkeys : ∀ key, Step.key key ∈ path → Segment.Quotable key) (ha : Step.Addressable path) :
    w.lookUp (w.arena.describe id) = (.ok (.scope id), w) := by
  obtain ⟨segments, hname, hmarker, hpath⟩ :=
    Address.ofName_render hne hkeys ha w.remembered
  have hread : w.address (w.arena.describe id) = .ok ⟨Step.render path, segments⟩ := by
    rw [address, h.arena.describe_eq hp, hname]
  have hanon := Address.isAnonymous_of_not_mem (a := ⟨Step.render path, segments⟩) hmarker
  have hfollow : w.arena.follow .root (Address.path segments) = .ok id := by
    rw [hpath]
    exact hp
  have hfound := Arena.lookUp_of_follow (Step.render path) (h.arena.exists_of_resolve hp) hmarker
    hfollow
  simp only [Workspace.lookUp, hread, hanon, Bool.false_eq_true, if_false,
    h.popAnonymous_of_global hc, hfound]

/-- The description of any other scope cannot be read. -/
theorem lookUp_describe_of_not_addressable (h : w.Sound) {path : List Step} {id : ScopeId}
    (hp : w.arena.resolve path = .ok id) (hne : path ≠ [])
    (hkeys : ∀ key, Step.key key ∈ path → Segment.Quotable key) (ha : ¬Step.Addressable path) :
    ∃ e, w.lookUp (w.arena.describe id) = (.error e, w) ∧
      (e.code = .nameIndexSyntax ∨ e.code = .nameIndexInvalid) := by
  obtain ⟨e, hname, hcode⟩ :=
    Address.ofName_render_of_not_addressable hne hkeys ha w.remembered
  have hread : w.address (w.arena.describe id) = .error e := by
    rw [address, h.arena.describe_eq hp, hname]
  exact ⟨e, by simp only [Workspace.lookUp, hread], hcode⟩

end Sound

/-- **A described address leads back to its scope, or to none.** After every run, while no scope is
open: the description of a scope other than the root, with keys on its path that an address can
show, is looked up to this scope if no two steps in a row on the path are indices; otherwise the
look-up refuses an index. Nothing changes either way. -/
theorem run_described_looked_up (policy : Policy) (remembered : List String)
    (ops : List (Operation V)) (path : List Step) (id : ScopeId) :
    let w := (ofPolicy policy remembered).run ops
    w.cursor = none → w.arena.resolve path = .ok id → id ≠ .root →
    (∀ key, Step.key key ∈ path → Segment.Quotable key) →
    (Step.Addressable path → w.lookUp (w.arena.describe id) = (.ok (.scope id), w)) ∧
    (¬Step.Addressable path → ∃ e, w.lookUp (w.arena.describe id) = (.error e, w) ∧
      (e.code = .nameIndexSyntax ∨ e.code = .nameIndexInvalid)) := by
  intro w hc hp hroot hkeys
  have h : w.Sound := sound_run policy remembered ops
  have hne : path ≠ [] := by
    rintro rfl
    exact hroot (Except.ok.inj hp).symm
  exact ⟨h.lookUp_describe hc hp hne hkeys, h.lookUp_describe_of_not_addressable hp hne hkeys⟩

/-- An entry under a key that is quoted, and a scope `b` in it. -/
theorem described_looked_up_of_entry :
    let w : Workspace Nat := (ofPolicy .default []).run
      [.createNamed "'x.y'.", .createNamed "'x.y'[0].b"]
    w.cursor = none ∧ w.arena.resolve [.key "x.y", .index 0, .key "b"] = .ok 3 ∧
      w.arena.describe 3 = "'x.y'[0].b" ∧ w.lookUp "'x.y'[0].b" = (.ok (.scope 3), w) := by
  intro w
  have hkeys : ∀ key, Step.key key ∈ [.key "x.y", .index 0, .key "b"] → Segment.Quotable key := by
    simp only [List.mem_cons, Step.key.injEq, List.not_mem_nil, or_false, reduceCtorEq, false_or]
    rintro key (rfl | rfl) <;> decide
  have ha : Step.Addressable [.key "x.y", .index 0, .key "b"] :=
    ⟨by simp [Step.Apart], by simp [Number.twoPow]⟩
  have hdescribe : w.arena.describe 3 = "'x.y'[0].b" := by rfl
  have hcursor : w.cursor = none := rfl
  have hpath : w.arena.resolve [.key "x.y", .index 0, .key "b"] = .ok 3 := rfl
  have hroot : (3 : ScopeId) ≠ .root := by decide
  have hfound := (run_described_looked_up (V := Nat) .default [] [.createNamed "'x.y'.",
    .createNamed "'x.y'[0].b"] _ 3 hcursor hpath hroot hkeys).1 ha
  rw [hdescribe] at hfound
  exact ⟨hcursor, hpath, hdescribe, hfound⟩

/-- An anonymous scope was opened in another one, and its description has two indices in a row. -/
theorem described_refused_of_nested_entry :
    let w : Workspace Nat := empty.run [.createNamed "a.", .createNamed "a[0].", .pop]
    w.cursor = none ∧ w.arena.resolve [.key "a", .index 0, .index 0] = .ok 3 ∧
      w.arena.describe 3 = "a[0][0]" ∧
      (w.lookUp (w.arena.describe 3)).1 = .error (.indexSyntax "a[0][0]") ∧
      (w.lookUp "a[0].[0]").1 = .ok (.scope 3) :=
  ⟨rfl, rfl, rfl, rfl, rfl⟩

end ScopedConfig.Workspace
