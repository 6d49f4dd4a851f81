import ScopedConfig.Proofs.Arena.Peeking
import ScopedConfig.Proofs.Tree.Unfold

/-!
# Walks and visits

A walk in a sound arena and a visit of the unfolded one go side by side. Where the walk finds a
scope, the visit finds its tree; where the walk creates a scope, the visit makes an empty tree at
the same step; and both are refused alike. A walk keeps to the arena and knows the rest of it, while
a visit rewrites the trees on its way back; the path from the root to the scope that the walk has
come to joins the two.

Key definitions: `Arena.Visited`, `Found.unfold`.
Key theorems: `Arena.Sound.enter_unfold`, `Arena.Sound.visited`, `Arena.Sound.visit_root`,
`Arena.Sound.lookUp_unfold`.
-/

namespace ScopedConfig

variable {V : Type}

/-- What a look-up finds, with a tree in the place of a scope. -/
def Found.unfold (a : Arena V) : Found V → Option (Item V (Tree V))
  | value v => some (.value v)
  | scope id => some (.scope (a.unfold id))
  | nothing => none

namespace Arena

/-- The end of a walk beside the outcome of a visit. The walk has gone on from the end of one path
to the end of another one, and `root` was the tree of all when it set out. -/
inductive Visited (act : Tree V → Except Code Unit × Tree V) (root : Tree V)
    (path path' : List Step) (visit : Except Code Unit × Tree V) :
    Except Fault ScopeId × Arena V → Prop
  /-- What is left to do is to act on the tree of the scope that the walk has come to. -/
  | arrived {b : Arena V} {target : ScopeId} (sound : b.Sound)
      (resolves : b.resolve path' = .ok target)
      (result : visit.1 = (act (b.unfold target)).1)
      (root_eq : root.modify (fun _ => visit.2) path =
        (b.unfold .root).modify (fun _ => (act (b.unfold target)).2) path') :
      Visited act root path path' visit (.ok target, b)
  | refused {b : Arena V} {e : Fault} (sound : b.Sound) (result : visit.1 = .error e.code)
      (root_eq : root.modify (fun _ => visit.2) path = b.unfold .root) :
      Visited act root path path' visit (.error e, b)

namespace Sound

variable {a : Arena V} {id : ScopeId} {s : Scope V}

/-! ### One segment -/

theorem enterKey_unfold (h : a.Sound) (hs : a.scopes[id]? = some s) (key : String) :
    (a.unfold id).enter (.key key) = ((a.enter id (.key key)).map fun (next, b) =>
      (b.unfold next, b.unfold id)).mapError Fault.code := by
  obtain ⟨hid, hnext⟩ := h.unfold_sprout hs key
  simp only [Tree.enter, enter, enterKey, scope_eq hs, h.find?_unfold hs, h.policy_unfold hs]
  rcases hk : s.find? key with _ | (v | child)
  · cases hclosed : s.policy.isClosed with
    | true => rfl
    | false =>
      simp only [addUnder_eq key hs, Option.map, Bool.false_eq_true, if_false, Except.map,
        Except.mapError, hid, hnext]
  · cases hfinal : s.policy.isFinal with
    | true => rfl
    | false =>
      simp only [addUnder_eq key hs, Option.map, Entry.unfold, Bool.false_eq_true, if_false,
        Except.map, Except.mapError, hid, hnext]
  · rfl

/-- **A walk and a visit go on alike by a segment.** -/
theorem enter_unfold (h : a.Sound) (hs : a.scopes[id]? = some s) (segment : Segment) :
    (a.unfold id).enter segment = ((a.enter id segment).map fun (next, b) =>
      (b.unfold next, b.unfold id)).mapError Fault.code := by
  rcases segment with key | ⟨_ | key, i⟩ | _
  · exact h.enterKey_unfold hs key
  · simp only [Tree.enter, enter, enterIndex, scope_eq hs, h.getElem?_appended_unfold hs]
    cases s.appended[i]? <;> rfl
  · simp only [Tree.enter, Tree.list, enter, enterList, scope_eq hs, h.find?_unfold hs]
    rcases hk : s.find? key with _ | (v | list)
    · rfl
    · rfl
    · obtain ⟨t, ht⟩ := h.exists_of_holds (holds_key hs hk)
      simp only [Option.map, Entry.unfold, enterIndex, scope_eq ht, h.getElem?_appended_unfold ht]
      cases t.appended[i]? <;> rfl
  · rfl

/-! ### Walks that write -/

/-- A segment leaves a sound arena, the path behind it, and all that is beside the path. -/
theorem enter_eq_ok (h : a.Sound) {path : List Step} (hp : a.resolve path = .ok id)
    {segment : Segment} {next : ScopeId} {b : Arena V} (he : a.enter id segment = .ok (next, b)) :
    b.Sound ∧ b.resolve (path ++ segment.steps) = .ok next ∧
      b.unfold .root = (a.unfold .root).modify (fun _ => b.unfold id) path := by
  obtain ⟨s, hs⟩ := h.exists_of_resolve hp
  have hx := h.entering hs segment
  rw [he] at hx
  cases hx with
  | found hf => exact ⟨h, follow_append_iff.mpr ⟨id, hp, hf⟩, h.unfold_eq_modify_self hp⟩
  | @created t key ht allowed noScope =>
    have hb := h.sprout ht key
    refine ⟨hb, follow_append_iff.mpr ⟨id, ?_, ?_⟩, ?_⟩
    · exact follow_mono (fun _ _ _ hh => holds_sprout ht noScope hh) hp
    · exact follow_singleton_iff.mpr (holds_sprout_self key ht)
    · exact h.unfold_eq_modify hb (agreesOff_sprout a id key) rfl hp

/-- **A walk and a visit end alike.** The induction is on the segments. What the visit makes of the
tree further on it puts back at the steps of the segment, and so along the path so far; that is to
put it back at the end of the longer path. -/
theorem visited (act : Tree V → Except Code Unit × Tree V) :
    ∀ (segments : List Segment) {a : Arena V} {id : ScopeId} {path : List Step},
      a.Sound → a.resolve path = .ok id →
        Visited act (a.unfold .root) path (path ++ Address.path segments)
          ((a.unfold id).visit act segments) (a.walk id segments)
  | [], a, id, path, h, hp => by
    rw [Address.path, List.flatMap_nil, List.append_nil]
    exact .arrived h hp rfl rfl
  | segment :: rest, a, id, path, h, hp => by
    obtain ⟨s, hs⟩ := h.exists_of_resolve hp
    have hx := h.enter_unfold hs segment
    rw [walk, path_cons, ← List.append_assoc, Tree.visit, hx]
    cases he : a.enter id segment with
    | error e => exact .refused h rfl (h.unfold_eq_modify_self hp).symm
    | ok p =>
      obtain ⟨next, b⟩ := p
      obtain ⟨hb, hnext, hroot⟩ := h.enter_eq_ok hp he
      have ih := visited act rest hb hnext
      -- both ways to put back what the visit makes of the rest
      have hback : ∀ t, (a.unfold .root).modify
          (fun _ => (b.unfold id).modify (fun _ => t) segment.steps) path =
          (b.unfold .root).modify (fun _ => t) (path ++ segment.steps) := fun t => by
        rw [hroot, Tree.modify_modify]
      simp only [Except.map, Except.mapError]
      revert ih
      generalize b.walk next rest = r
      intro ih
      cases ih with
      | arrived sound resolves result root_eq =>
        exact .arrived sound resolves result ((hback _).trans root_eq)
      | refused sound result root_eq => exact .refused sound result ((hback _).trans root_eq)

/-- **A walk from the root, beside a visit.** Either both are refused, or the walk comes to a scope,
and an arena in which this scope alone has become what the act makes of its tree is what the visit
makes of the tree of all. -/
theorem visit_root (h : a.Sound) (act : Tree V → Except Code Unit × Tree V)
    (segments : List Segment) :
    (∃ e b, a.walk .root segments = (.error e, b) ∧ b.Sound ∧
        (a.unfold .root).visit act segments = (.error e.code, b.unfold .root)) ∨
      ∃ target b, a.walk .root segments = (.ok target, b) ∧ b.Sound ∧
        b.resolve (Address.path segments) = .ok target ∧
        ∀ (b' : Arena V) result, b'.Sound → b.AgreesOff b' target →
          act (b.unfold target) = (result, b'.unfold target) →
            (a.unfold .root).visit act segments = (result, b'.unfold .root) := by
  have hv := @visited V act segments a .root [] h rfl
  revert hv
  generalize (a.unfold .root).visit act segments = visit
  generalize a.walk .root segments = r
  intro hv
  cases hv with
  | @refused b e sound result root_eq => exact .inl ⟨e, b, rfl, sound, Prod.ext result root_eq⟩
  | @arrived b target sound resolves result root_eq =>
    refine .inr ⟨target, b, rfl, sound, resolves, fun b' x hb' hbb' hact => Prod.ext ?_ ?_⟩
    · rw [result, hact]
    · rw [hact] at root_eq
      exact root_eq.trans (sound.unfold_eq_modify hb' hbb' rfl resolves).symm

/-- A value is written into a scope as it is into its tree, or refused as it is there. -/
theorem write_unfold (h : a.Sound) (hs : a.scopes[id]? = some s) (key : String) (v : V) :
    (∃ b, a.write id key v = .ok b ∧ b.Sound ∧ a.AgreesOff b id ∧
        (a.unfold id).write key v = (.ok (), b.unfold id)) ∨
      ∃ e, a.write id key v = .error e ∧
        (a.unfold id).write key v = (.error e.code, a.unfold id) := by
  rw [Tree.write, h.holds_unfold hs, h.policy_unfold hs]
  rcases write_cases hs key v with ⟨⟨hfinal, hclosed⟩, hw⟩ | ⟨hh, hf, hw⟩ | ⟨hh, hc, hw⟩
  · refine .inl ⟨_, hw, h.putValue hs key v, agreesOff_update a id _, ?_⟩
    rw [if_neg fun hx => by simp [hfinal hx.1] at hx,
      if_neg fun hx => by simp [hclosed (by simpa using hx.1)] at hx, h.unfold_putValue hs key v]
  · exact .inr ⟨_, hw, by rw [if_pos ⟨hh, hf⟩]; rfl⟩
  · exact .inr ⟨_, hw, by simp [hh, hc, Fault.code]⟩

/-! ### Walks that read -/

/-- **A look-up finds in the tree what it finds in the arena.** -/
theorem lookUp_unfold (h : a.Sound) (address : String) :
    ∀ {segments : List Segment} {id : ScopeId}, (∃ s, a.scopes[id]? = some s) →
      (a.unfold id).lookUp segments =
        ((a.lookUp address id segments).map (Found.unfold a)).mapError Fault.code
  | [], id, ⟨s, hs⟩ => by
    simp only [Tree.lookUp, lookUp, scope_eq hs, Except.map, Except.mapError, Found.unfold]
  | .key k :: rest, id, ⟨s, hs⟩ => by
    simp only [Tree.lookUp, lookUp, scope_eq hs, h.find?_unfold hs]
    rcases hk : s.find? k with _ | (v | child)
    · rfl
    · rfl
    · exact h.lookUp_unfold address (h.exists_of_holds (holds_key hs hk))
  | .index none i :: rest, id, ⟨s, hs⟩ => by
    simp only [Tree.lookUp, lookUp, scope_eq hs, h.getElem?_appended_unfold hs]
    cases hi : s.appended[i]? with
    | none => rfl
    | some child => exact h.lookUp_unfold address (h.exists_of_holds (holds_index hs hi))
  | .index (some k) i :: rest, id, ⟨s, hs⟩ => by
    simp only [Tree.lookUp, lookUp, scope_eq hs, h.find?_unfold hs]
    rcases hk : s.find? k with _ | (v | list)
    · rfl
    · rfl
    · obtain ⟨t, ht⟩ := h.exists_of_holds (holds_key hs hk)
      simp only [Option.map, Entry.unfold, scope_eq ht, h.getElem?_appended_unfold ht]
      cases hi : t.appended[i]? with
      | none => rfl
      | some child => exact h.lookUp_unfold address (h.exists_of_holds (holds_index ht hi))
  | .anonymous :: rest, id, _ => rfl

end Sound

end Arena

end ScopedConfig
