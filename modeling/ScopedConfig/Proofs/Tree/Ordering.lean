import ScopedConfig.Proofs.Tree.Keys
import ScopedConfig.Proofs.Tree.Unfold

/-!
# Ordered trees

The tree of a sound arena has its keys in order, and so has every tree that keys lead to. Then a
tree is what it says of its keys, and a visit that begins with a key comes to a single write: what
it makes of the tree further on is put under the key, and nothing is changed if the key leads
nowhere. Whether it does depends on the policy and on what the key holds.

Key definitions: `Tree.Ordered`, `Tree.onward`.
Key theorems: `Tree.visit_key_of_error`, `Tree.visit_key`, `Tree.visit_append`,
`Arena.Sound.ordered_unfold`.
-/

namespace ScopedConfig

variable {V : Type}

namespace Tree

/-- The keys are in order, here and wherever keys lead to. -/
inductive Ordered : Tree V → Prop
  | mk {t : Tree V} (sorted : Table.Sorted t.entries)
      (child : ∀ key child, t.find? key = some (.scope child) → Ordered child) : Ordered t

/-- The tree that a key leads on to: the one that it holds, or an empty one if the policy allows it
to be made. -/
def onward (policy : Policy) : Option (Item V (Tree V)) → Except Code (Tree V)
  | some (.scope child) => .ok child
  | some (.value _) =>
    if policy.isFinal then .error .scopeFinalOverride else .ok (empty .default)
  | none => if policy.isClosed then .error .scopeClosedAdd else .ok (empty .default)

variable {t child : Tree V} {act : Tree V → Except Code Unit × Tree V} {key : String}

/-! ### One key -/

theorem Ordered.sorted (h : t.Ordered) : Table.Sorted t.entries := by
  cases h with
  | mk sorted _ => exact sorted

theorem ordered_empty (policy : Policy) : Ordered (empty policy : Tree V) :=
  .mk Table.sorted_nil fun _ _ h => absurd h (by simp [find?, empty, Table.find?])

theorem Ordered.onward (h : t.Ordered) (hc : onward t.policy (t.find? key) = .ok child) :
    child.Ordered := by
  obtain ⟨-, hchild⟩ := h
  revert hc
  rcases hk : t.find? key with _ | (v | c) <;> simp only [Tree.onward]
  · split
    · simp
    · exact fun hc => Except.ok.inj hc ▸ ordered_empty .default
  · split
    · simp
    · exact fun hc => Except.ok.inj hc ▸ ordered_empty .default
  · exact fun hc => Except.ok.inj hc ▸ hchild key c hk

theorem put_put (hs : Table.Sorted t.entries) (item item' : Item V (Tree V)) :
    (t.put key item).put key item' = t.put key item' :=
  congrArg (Tree.mk t.policy · t.appended) (Table.insert_insert hs)

theorem put_of_find? (hs : Table.Sorted t.entries) {item : Item V (Tree V)}
    (h : t.find? key = some item) : t.put key item = t := by
  obtain ⟨policy, entries, appended⟩ := t
  exact congrArg (Tree.mk policy · appended) (Table.insert_of_find? hs h)

theorem modifyNext_put (hs : Table.Sorted t.entries) (f : Tree V → Tree V) (child : Tree V) :
    (t.put key (.scope child)).modifyNext f (.key key) = t.put key (.scope (f child)) := by
  have hput : Table.find? key (Table.insert key (.scope child) t.entries) =
      some (.scope child) := by
    rw [Table.find?_insert, if_pos rfl]
  rw [modifyNext, put, Table.modify_eq_insert (Table.sorted_insert key _ hs) _ hput]
  exact put_put hs (.scope child) (.scope (f child))

theorem visit_key_of_error {c : Code} (h : onward t.policy (t.find? key) = .error c)
    (act : Tree V → Except Code Unit × Tree V) (rest : List Segment) :
    visit act (.key key :: rest) t = (.error c, t) := by
  rw [visit, enter]
  rcases hk : t.find? key with _ | (v | child) <;> simp only [onward, hk] at h ⊢
  · split at h
    · rename_i hclosed
      rw [if_pos hclosed, Except.error.inj h]
    · simp at h
  · split at h
    · rename_i hfinal
      rw [if_pos hfinal, Except.error.inj h]
    · simp at h
  · simp at h

/-- **A visit that begins with a key puts what it makes further on under the key.** -/
theorem visit_key (hs : Table.Sorted t.entries) (h : onward t.policy (t.find? key) = .ok child)
    (act : Tree V → Except Code Unit × Tree V) (rest : List Segment) :
    visit act (.key key :: rest) t =
      ((visit act rest child).1, t.put key (.scope (visit act rest child).2)) := by
  have hput : ∀ made : Tree V, modify (fun _ => made) (Segment.key key).steps
      (t.put key (.scope (empty .default))) = t.put key (.scope made) := fun made =>
    modifyNext_put hs _ _
  rw [visit, enter]
  rcases hk : t.find? key with _ | (v | child') <;> simp only [onward, hk] at h ⊢
  · split at h
    · simp at h
    · rename_i hclosed
      obtain rfl := Except.ok.inj h
      simp only [if_neg hclosed, hput]
  · split at h
    · simp at h
    · rename_i hfinal
      obtain rfl := Except.ok.inj h
      simp only [if_neg hfinal, hput]
  · obtain rfl := Except.ok.inj h
    exact Prod.ext rfl (congrArg (Tree.mk t.policy · t.appended) (Table.modify_eq_insert hs _ hk))

theorem visit_append (act : Tree V → Except Code Unit × Tree V) (rest : List Segment) :
    ∀ segments : List Segment, visit act (segments ++ rest) = visit (visit act rest) segments
  | [] => rfl
  | segment :: segments => by
    funext t
    rw [List.cons_append, visit, visit, visit_append act rest segments]

end Tree

/-! ### The tree of an arena -/

namespace Arena.Sound

variable {a : Arena V} {id : ScopeId} {s : Scope V}

theorem keys_unfold (h : a.Sound) (hs : a.scopes[id]? = some s) :
    Table.keys (a.unfold id).entries = s.entries.keys := by
  rw [h.unfold_eq hs, Scope.unfold, Table.keys_mapValues]

theorem appended_unfold (h : a.Sound) (hs : a.scopes[id]? = some s) :
    (a.unfold id).appended = s.appended.map a.unfold := by
  rw [h.unfold_eq hs]
  rfl

/-- **A sound arena unfolds to an ordered tree.** -/
theorem ordered_unfold (h : a.Sound) (hs : a.scopes[id]? = some s) : (a.unfold id).Ordered := by
  refine h.held_induction (P := fun id => (a.unfold id).Ordered) ?_ id s hs
  intro id s hs ih
  refine .mk ?_ fun key child hk => ?_
  · rw [Table.Sorted, h.keys_unfold hs]
    exact (h.scope id s hs).sorted
  · rw [h.find?_unfold hs, Option.map_eq_some_iff] at hk
    obtain ⟨entry, hentry, hunfold⟩ := hk
    cases entry with
    | value v => simp [Entry.unfold] at hunfold
    | scope next =>
      obtain rfl := Item.scope.inj hunfold
      exact ih (.key key) next (Scope.next?_key hentry)

end Arena.Sound

end ScopedConfig
