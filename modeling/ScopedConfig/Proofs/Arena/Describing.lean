import ScopedConfig.Proofs.Arena.Writing

/-!
# Climbing back along a path

A climb goes from a scope to its holder by the step that the holder holds it at. In a sound arena
the holder is the parent, and the step is the only one, so a scope that a path leads to is described
by that path: the climb takes the path's last step first, and the numbers that fall on the way leave
rounds enough. A climb that ends at the root has walked such a path, so what no path leads to is
described as detached.

Key definitions: `Step.Rendered`.
Key theorems: `Step.rendered_iff`, `Arena.SoundAt.stepTo?_eq_some_iff`, `Arena.Sound.climb_eq`,
`Arena.Sound.describe_eq`, `Arena.Sound.describe_eq_detached`.
-/

namespace ScopedConfig

/-! ### The text of a path -/

namespace Step

/-- A text shows a path: what leads to its last step comes first. An index stands in brackets
behind it, a key behind a dot, or behind nothing if nothing is shown so far. -/
inductive Rendered : List Step → String → Prop
  | root : Rendered [] ""
  | first {path : List Step} (key : String) (h : Rendered path "") :
      Rendered (path ++ [.key key]) (String.ofList (keyText key.toList))
  | key {path : List Step} {text : String} (key : String) (h : Rendered path text)
      (shown : text ≠ "") :
      Rendered (path ++ [.key key]) (text ++ "." ++ String.ofList (keyText key.toList))
  | index {path : List Step} {text : String} (i : Nat) (h : Rendered path text) :
      Rendered (path ++ [.index i]) (text ++ "[" ++ toString i ++ "]")

theorem render_concat (path : List Step) (step : Step) :
    render (path ++ [step]) = String.ofList (step.appendTo (render path).toList) := by
  simp only [render, List.foldl_append, List.foldl_cons, List.foldl_nil, String.toList_ofList]

theorem render_first {path : List Step} (hempty : render path = "") (key : String) :
    render (path ++ [.key key]) = String.ofList (keyText key.toList) := by
  rw [render_concat, hempty, appendTo, if_pos String.toList_empty, List.nil_append]

theorem render_key {path : List Step} (hshown : render path ≠ "") (key : String) :
    render (path ++ [.key key]) = render path ++ "." ++ String.ofList (keyText key.toList) := by
  have hne : (render path).toList ≠ [] := String.toList_eq_nil_iff.not.mpr hshown
  rw [render_concat, appendTo, if_neg hne, ← String.toList_inj]
  simp only [String.toList_ofList, String.toList_append, List.append_assoc]
  rfl

theorem render_index (path : List Step) (i : Nat) :
    render (path ++ [.index i]) = render path ++ "[" ++ toString i ++ "]" := by
  have hdigits : (toString i).toList = Nat.toDigits 10 i := String.toList_ofList
  rw [render_concat, appendTo, ← String.toList_inj]
  simp only [String.toList_ofList, String.toList_append, hdigits, List.append_assoc]
  rfl

/-- **One text shows a path**, and it is the address of the path. -/
theorem rendered_iff {path : List Step} {text : String} :
    Rendered path text ↔ render path = text := by
  constructor
  · intro h
    induction h with
    | root => rfl
    | first k _ ih => exact render_first ih k
    | key k _ shown ih => rw [render_key (ih ▸ shown), ih]
    | index i _ ih => rw [render_index, ih]
  · rintro rfl
    induction path using List.reverseRecOn with
    | nil => exact .root
    | append_singleton path step ih =>
      cases step with
      | key k =>
        by_cases hempty : render path = ""
        · exact render_first hempty k ▸ .first k (hempty ▸ ih)
        · exact render_key hempty k ▸ .key k ih hempty
      | index i => exact render_index path i ▸ .index i ih

/-- An empty key is not shown, and no dot stands behind it. -/
example : Rendered [.key "", .key "b.c", .index 2] "'b.c'[2]" :=
  rendered_iff.mpr rfl

end Step

/-! ### Steps that are found -/

variable {V : Type} {s : Scope V} {child : ScopeId} {step : Step}

theorem Entry.scope?_beq_iff {entry : Entry V} :
    (entry.scope? == some child) = true ↔ entry = .scope child := by
  cases entry with
  | value v => simp [scope?]
  | scope id => simp [scope?]

theorem Scope.exists_stepTo? (h : s.next? step = some child) :
    ∃ first, s.stepTo? child = some first := by
  unfold stepTo?
  cases hfirst : s.entries.firstKey? (·.scope? == some child) with
  | some key => exact ⟨.key key, rfl⟩
  | none =>
    cases step with
    | key k =>
      -- the search by key would have found it
      obtain ⟨entry, hk, he⟩ := Option.bind_eq_some_iff.mp h
      have hmem : (k, entry) ∈ s.entries := Table.mem_of_find? hk
      have hscope : (entry.scope? == some child) = true := beq_iff_eq.mpr he
      obtain ⟨first, hf⟩ :=
        Table.exists_firstKey?_of_mem (p := fun entry => entry.scope? == some child) hscope hmem
      rw [hfirst] at hf
      exact absurd hf (by simp)
    | index i =>
      have hmem : child ∈ s.appended := List.mem_of_getElem? h
      obtain ⟨j, hj⟩ := Option.isSome_iff_exists.mp (List.isSome_idxOf?.mpr hmem)
      exact ⟨.index j, by rw [hj]; rfl⟩

namespace Arena

variable {a : Arena V} {id : ScopeId}

theorem SoundAt.next?_of_stepTo? (h : a.SoundAt id s) (hstep : s.stepTo? child = some step) :
    s.next? step = some child := by
  unfold Scope.stepTo? at hstep
  split at hstep
  · rename_i key hfirst
    obtain rfl := Option.some.inj hstep
    obtain ⟨entry, hmem, he⟩ := Table.exists_of_firstKey? hfirst
    obtain rfl := Entry.scope?_beq_iff.mp he
    exact Scope.next?_key (Table.find?_eq_some_of_mem h.sorted hmem)
  · obtain ⟨i, hi, rfl⟩ := Option.map_eq_some_iff.mp hstep
    obtain ⟨hlt, hchild, -⟩ := List.findIdx?_eq_some_iff_getElem.mp hi
    rw [Scope.next?, List.getElem?_eq_getElem hlt, eq_of_beq hchild]

/-- **The step that is found is the one that a scope is held at.** -/
theorem SoundAt.stepTo?_eq_some_iff (h : a.SoundAt id s) :
    s.stepTo? child = some step ↔ s.next? step = some child := by
  refine ⟨h.next?_of_stepTo?, fun hstep => ?_⟩
  obtain ⟨first, hfirst⟩ := Scope.exists_stepTo? hstep
  rw [hfirst, h.once first step child (h.next?_of_stepTo? hfirst) hstep]

/-! ### Climbs -/

namespace Sound

/-- **A climb goes back along the path.** -/
theorem climb_eq (h : a.Sound) {path : List Step} : ∀ {id rounds : Nat} {behind : List Step},
    a.resolve path = .ok id → id < rounds → a.climb rounds id behind = .root (path ++ behind) := by
  induction path using List.reverseRecOn with
  | nil =>
    intro id rounds behind hp hrounds
    obtain rfl := Except.ok.inj hp
    obtain ⟨rounds, rfl⟩ := Nat.exists_eq_add_of_lt hrounds
    obtain ⟨s, hs⟩ := h.root
    have hparent : s.parent? = none := (h.scope .root s hs).parent_none_iff.mpr rfl
    simp only [climb, hs, hparent, List.nil_append]
  | append_singleton path step ih =>
    intro id rounds behind hp hrounds
    obtain ⟨holder, hpath, hstep⟩ := follow_append_iff.mp hp
    have hholds : a.Holds holder step id := follow_singleton_iff.mp hstep
    obtain ⟨s, hs, hparent⟩ := h.isChild_of_holds hholds
    obtain ⟨p, hp', hnext⟩ := hholds
    have hlt : holder < id := h.lt_of_holds ⟨p, hp', hnext⟩
    have hfound : p.stepTo? id = some step := (h.scope holder p hp').stepTo?_eq_some_iff.mpr hnext
    cases rounds with
    | zero => exact absurd hrounds (Nat.not_lt_zero id)
    | succ rounds =>
      have hless : holder < rounds := Nat.lt_of_lt_of_le hlt (Nat.le_of_lt_succ hrounds)
      simp only [climb, hs, hparent, hp', Option.bind_some, hfound]
      rw [ih hpath hless, List.append_assoc, List.singleton_append]

/-- **A scope is described by the path that leads to it.** -/
theorem describe_eq (h : a.Sound) {path : List Step} (hp : a.resolve path = .ok id) :
    a.describe id = Step.render path := by
  rw [describe, h.climb_eq hp (Nat.lt_succ_self id), List.append_nil]

/-- **A climb that ends at the root has come along a path.** -/
theorem exists_of_climb (h : a.Sound) : ∀ {rounds id : Nat} {behind path : List Step},
    a.climb rounds id behind = .root path →
      ∃ front, a.resolve front = .ok id ∧ path = front ++ behind
  | 0, _, _, _, hc => by simp [climb] at hc
  | rounds + 1, id, behind, path, hc => by
    unfold climb at hc
    split at hc
    · simp at hc
    · rename_i s hs
      split at hc
      · rename_i hnone
        obtain rfl := (h.scope id s hs).parent_none_iff.mp hnone
        obtain rfl := Climb.root.inj hc
        exact ⟨[], rfl, rfl⟩
      · rename_i parent hparent
        split at hc
        · simp at hc
        · rename_i step hfound
          obtain ⟨p, hp, hstep⟩ := Option.bind_eq_some_iff.mp hfound
          obtain ⟨front, hfront, rfl⟩ := h.exists_of_climb hc
          have hholds : a.Holds parent step id :=
            ⟨p, hp, (h.scope parent p hp).next?_of_stepTo? hstep⟩
          exact ⟨front ++ [step],
            follow_append_iff.mpr ⟨parent, hfront, follow_singleton_iff.mpr hholds⟩, by simp⟩

/-- **What no path leads to is described as detached.** -/
theorem describe_eq_detached (h : a.Sound) (hid : ∀ path, a.resolve path ≠ .ok id) :
    a.describe id = "<detached>" := by
  unfold describe
  split
  · rename_i path hc
    obtain ⟨front, hfront, -⟩ := h.exists_of_climb hc
    exact absurd hfront (hid front)
  · rfl

end Sound

end Arena

end ScopedConfig
