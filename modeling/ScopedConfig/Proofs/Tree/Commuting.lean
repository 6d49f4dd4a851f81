import ScopedConfig.Proofs.Tree.Keys
import ScopedConfig.Proofs.Tree.Ordering

/-!
# Writes that commute

Two acts may be done in either order if each of them ends as it would have ended alone, and both
orders leave the same behind. An act at a key, that is one which goes by the policy of a tree and by
what the key holds, and which writes the key alone, may be done before or after an act at another
key. A write is an act at its key, and a visit is an act at the first of the keys it follows.

Keys that are apart go the same way up to a first difference. Up to there two visits go into the
same trees, made by whichever of them comes first; where they part they are acts at different keys.
So writes at the ends of such keys may be done in either order, and the tree is the same whichever
of the two has made the trees on the common way.

Key definitions: `EitherOrder`, `Tree.ActsAt`.
Key theorems: `Tree.ActsAt.eitherOrder`, `Tree.eitherOrder_visit`, `Tree.Ordered.eitherOrder_write`.
-/

namespace ScopedConfig

variable {V : Type}

/-- Two acts on a state may be done in either order: each ends as it does without the other, and
they leave the same state behind. -/
structure EitherOrder {σ α : Type} (act act' : σ → α × σ) (s : σ) : Prop where
  first : (act (act' s).2).1 = (act s).1
  second : (act' (act s).2).1 = (act' s).1
  state : (act' (act s).2).2 = (act (act' s).2).2

namespace Tree

variable {t : Tree V} {key key' : String} {act act' : Tree V → Except Code Unit × Tree V}

/-! ### One key -/

/-- Puts something under a key, or leaves the tree as it is. -/
def putIf (t : Tree V) (key : String) : Option (Item V (Tree V)) → Tree V
  | none => t
  | some item => t.put key item

theorem policy_putIf (t : Tree V) (key : String) (item? : Option (Item V (Tree V))) :
    (t.putIf key item?).policy = t.policy := by
  cases item? <;> rfl

theorem find?_putIf_of_ne (hne : key ≠ key') (t : Tree V) (item? : Option (Item V (Tree V))) :
    (t.putIf key item?).find? key' = t.find? key' := by
  cases item? with
  | none => rfl
  | some item => exact (find?_put t key key' item).trans (if_neg hne.symm)

theorem sorted_putIf (hs : Table.Sorted t.entries) (item? : Option (Item V (Tree V))) :
    Table.Sorted (t.putIf key item?).entries := by
  cases item? with
  | none => exact hs
  | some item => exact Table.sorted_insert key item hs

theorem putIf_comm (hs : Table.Sorted t.entries) (hne : key ≠ key')
    (item? item?' : Option (Item V (Tree V))) :
    (t.putIf key item?).putIf key' item?' = (t.putIf key' item?').putIf key item? := by
  cases item? with
  | none => rfl
  | some item =>
    cases item?' with
    | none => rfl
    | some item' => exact congrArg (Tree.mk t.policy · t.appended) (Table.insert_comm hs hne)

/-- The act goes by the policy of a tree and by what the key holds, and writes the key alone. -/
def ActsAt (key : String) (act : Tree V → Except Code Unit × Tree V) : Prop :=
  ∃ effect : Policy → Option (Item V (Tree V)) → Except Code Unit × Option (Item V (Tree V)),
    ∀ t : Tree V, Table.Sorted t.entries → act t =
      ((effect t.policy (t.find? key)).1, t.putIf key (effect t.policy (t.find? key)).2)

/-- **Acts at different keys may be done in either order.** -/
theorem ActsAt.eitherOrder (h : ActsAt key act) (h' : ActsAt key' act') (hne : key ≠ key')
    (hs : Table.Sorted t.entries) : EitherOrder act act' t := by
  obtain ⟨effect, h⟩ := h
  obtain ⟨effect', h'⟩ := h'
  -- neither of them notices the other one
  have hafter : ∀ item?, act (t.putIf key' item?) = ((effect t.policy (t.find? key)).1,
      (t.putIf key' item?).putIf key (effect t.policy (t.find? key)).2) := fun item? => by
    rw [h _ (sorted_putIf hs item?), policy_putIf, find?_putIf_of_ne hne.symm]
  have hafter' : ∀ item?, act' (t.putIf key item?) = ((effect' t.policy (t.find? key')).1,
      (t.putIf key item?).putIf key' (effect' t.policy (t.find? key')).2) := fun item? => by
    rw [h' _ (sorted_putIf hs item?), policy_putIf, find?_putIf_of_ne hne]
  constructor
  · rw [h' t hs, hafter, h t hs]
  · rw [h t hs, hafter', h' t hs]
  · rw [h t hs, h' t hs, hafter, hafter']
    exact putIf_comm hs hne _ _

theorem actsAt_write (key : String) (v : V) : ActsAt key (write key v) := by
  refine ⟨fun policy item? =>
    if item?.isSome && policy.isFinal then (.error .scopeFinalOverride, none)
    else if !item?.isSome && policy.isClosed then (.error .scopeClosedAdd, none)
    else (.ok (), some (.value v)), fun t _ => ?_⟩
  cases hk : t.find? key with
  | none => cases hclosed : t.policy.isClosed <;> simp [write, holds, hk, hclosed, putIf]
  | some item => cases hfinal : t.policy.isFinal <;> simp [write, holds, hk, hfinal, putIf]

theorem actsAt_visit (act : Tree V → Except Code Unit × Tree V) (key : String)
    (rest : List Segment) : ActsAt key (visit act (.key key :: rest)) := by
  refine ⟨fun policy item? => ((onward policy item?).bind fun child => (visit act rest child).1,
    (onward policy item?).toOption.map fun child => .scope (visit act rest child).2),
    fun t hs => ?_⟩
  cases honward : onward t.policy (t.find? key) with
  | error c =>
    simp only [visit_key_of_error honward, honward, Except.bind, Except.toOption, Option.map, putIf]
  | ok child =>
    simp only [visit_key hs honward, honward, Except.bind, Except.toOption, Option.map, putIf]

/-! ### The common way -/

theorem visit_key_put (hs : Table.Sorted t.entries) (key : String) (made : Tree V)
    (act : Tree V → Except Code Unit × Tree V) (rest : List Segment) :
    visit act (.key key :: rest) (t.put key (.scope made)) =
      ((visit act rest made).1, t.put key (.scope (visit act rest made).2)) := by
  have honward : onward (t.put key (.scope made)).policy
      ((t.put key (.scope made)).find? key) = .ok made := by
    rw [find?_put, if_pos rfl, onward]
  rw [visit_key (Table.sorted_insert key _ hs) honward, put_put hs]

/-- **Visits may be made in either order if their acts may be done so at the end of the common
way.** The induction is on the keys of the way. A visit that is refused at the first key changes
nothing; otherwise the tree there is the one that the visit before has left. -/
theorem eitherOrder_visit (hacts : ∀ t : Tree V, t.Ordered → EitherOrder act act' t) :
    ∀ (front : List String) {t : Tree V}, t.Ordered →
      EitherOrder (visit act (front.map .key)) (visit act' (front.map .key)) t
  | [], t, h => hacts t h
  | key :: front, t, h => by
    rw [List.map_cons]
    cases honward : onward t.policy (t.find? key) with
    | error c =>
      have hvisit := fun act => visit_key_of_error honward act (front.map .key)
      exact ⟨by rw [hvisit, hvisit], by rw [hvisit, hvisit], by rw [hvisit, hvisit, hvisit]⟩
    | ok child =>
      have ih := eitherOrder_visit hacts front (h.onward honward)
      have hvisit := fun act => visit_key h.sorted honward act (front.map .key)
      have hagain := fun (act : Tree V → Except Code Unit × Tree V) (made : Tree V) =>
        visit_key_put h.sorted key made act (front.map .key)
      constructor
      · rw [hvisit act', hagain, hvisit act]
        exact ih.first
      · rw [hvisit act, hagain, hvisit act']
        exact ih.second
      · rw [hvisit act, hvisit act', hagain, hagain]
        exact congrArg (fun made => t.put key (.scope made)) ih.state

/-! ### Writes at the ends of keys -/

/-- Keys that are apart go the same way up to a first difference. -/
theorem Apart.exists_fork : ∀ {p q : List String}, Apart p q →
    ∃ front key rest key' rest', p = front ++ key :: rest ∧ q = front ++ key' :: rest' ∧ key ≠ key'
  | [], _, h => absurd List.nil_prefix h.1
  | _ :: _, [], h => absurd List.nil_prefix h.2
  | k :: p, l :: q, h => by
    by_cases hk : k = l
    · subst hk
      obtain ⟨front, key, rest, key', rest', rfl, rfl, hne⟩ := (apart_cons.mp h).exists_fork
      exact ⟨k :: front, key, rest, key', rest', rfl, rfl, hne⟩
    · exact ⟨[], k, p, l, q, rfl, rfl, hk⟩

/-- A write at the end of keys is an act at each of them, once a visit has come there. -/
theorem exists_actsAt {path front rest : List String} {last : String} (v : V)
    (h : path ++ [last] = front ++ key :: rest) :
    ∃ act, visit (write last v) (path.map .key) = visit act (front.map .key) ∧ ActsAt key act := by
  rcases List.eq_nil_or_concat' rest with rfl | ⟨rest, x, rfl⟩
  · obtain ⟨rfl, hlast⟩ := List.append_inj' h rfl
    obtain rfl := List.singleton_inj.mp hlast
    exact ⟨write last v, rfl, actsAt_write last v⟩
  · rw [← List.cons_append, ← List.append_assoc] at h
    obtain ⟨rfl, -⟩ := List.append_inj' h rfl
    refine ⟨visit (write last v) (.key key :: rest.map .key), ?_, actsAt_visit _ key _⟩
    rw [List.map_append, List.map_cons, visit_append]

/-- **Writes at the ends of keys that are apart may be done in either order.** -/
theorem Ordered.eitherOrder_write (h : t.Ordered) {path path' : List String} {last last' : String}
    (hapart : Apart (path ++ [last]) (path' ++ [last'])) (v v' : V) :
    EitherOrder (visit (write last v) (path.map .key)) (visit (write last' v') (path'.map .key))
      t := by
  obtain ⟨front, key, rest, key', rest', hp, hq, hne⟩ := hapart.exists_fork
  obtain ⟨act, hact, hat⟩ := exists_actsAt v hp
  obtain ⟨act', hact', hat'⟩ := exists_actsAt v' hq
  rw [hact, hact']
  exact eitherOrder_visit (fun _ ht => hat.eitherOrder hat' hne ht.sorted) front h

end Tree

end ScopedConfig
