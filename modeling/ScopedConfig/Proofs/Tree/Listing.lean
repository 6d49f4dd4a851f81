import ScopedConfig.Proofs.Tree.Keys
import ScopedConfig.Proofs.Tree.Ordering

/-!
# Lists at the ends of keys

Keys lead to a tree, and the trees appended to it are a list. A visit that makes way for a new entry
finds the tree at the end of the keys or makes it, and it does not change what is appended there; a
second visit changes nothing at all. What is appended at the end of the path is then the last entry,
and the entries are read by their positions behind the last key.

An entry that is filled by local writes holds for each key the value that was written last.

Key definitions: `Tree.at?`, `Tree.listed`, `Tree.ofRecord`.
Key theorems: `Tree.Ordered.opened`, `Tree.Ordered.visit_ensureOpen`, `Tree.at?_modify`,
`Tree.lookUp_entry`, `Tree.find?_ofRecord`.
-/

namespace ScopedConfig

variable {V : Type}

namespace Tree

variable {t t' parent : Tree V} {path : List String} {key last : String}

/-! ### The tree at the end of keys -/

/-- The tree that keys lead to. -/
def at? (t : Tree V) : List String → Option (Tree V)
  | [] => some t
  | key :: path =>
    match t.find? key with
    | some (.scope child) => child.at? path
    | _ => none

/-- The trees in the list at the end of keys; there is no other list than an empty one where no tree
is. -/
def listed (t : Tree V) (path : List String) : List (Tree V) :=
  ((t.at? path).map (·.appended)).getD []

theorem at?_put (t child : Tree V) (key : String) (path : List String) :
    (t.put key (.scope child)).at? (key :: path) = child.at? path := by
  rw [at?, find?_put, if_pos rfl]

theorem at?_modify (f : Tree V → Tree V) : ∀ (path : List String) {t parent : Tree V},
    t.at? path = some parent → (t.modify f (path.map .key)).at? path = some (f parent)
  | [], t, parent, h => by
    obtain rfl := Option.some.inj h
    rfl
  | key :: path, t, parent, h => by
    rw [at?] at h
    rcases hk : t.find? key with _ | (v | child)
    · simp [hk] at h
    · simp [hk] at h
    · rw [hk] at h
      have ih := at?_modify f path h
      show (t.modifyNext (modify f (path.map .key)) (.key key)).at? (key :: path) = some (f parent)
      rw [at?, find?_modifyNext_key, if_pos rfl, hk]
      exact ih

theorem lookUp_entry (last : String) (i : Nat) (rest : List Segment) :
    ∀ (front : List String) {t parent : Tree V}, t.at? (front ++ [last]) = some parent →
      t.lookUp (front.map .key ++ .index (some last) i :: rest) =
        match parent.appended[i]? with
        | some child => child.lookUp rest
        | none => .ok none
  | [], t, parent, h => by
    rw [List.nil_append, at?] at h
    rcases hk : t.find? last with _ | (v | child)
    · simp [hk] at h
    · simp [hk] at h
    · rw [hk] at h
      obtain rfl := Option.some.inj h
      rw [List.map_nil, List.nil_append]
      cases hi : child.appended[i]? with
      | none => simp only [lookUp, hk, hi]
      | some entry => simp only [lookUp, hk, hi]
  | key :: front, t, parent, h => by
    rw [List.cons_append, at?] at h
    rcases hk : t.find? key with _ | (v | child)
    · simp [hk] at h
    · simp [hk] at h
    · rw [hk] at h
      have ih := lookUp_entry last i rest front h
      rw [List.map_cons, List.cons_append, lookUp]
      simp only [hk]
      exact ih

/-! ### Making way for an entry -/

theorem ensureOpen_eq_ok (h : ensureOpen t = (.ok (), t')) :
    t.policy.isClosed = false ∧ t' = t := by
  rw [ensureOpen] at h
  cases hclosed : t.policy.isClosed with
  | true => simp [hclosed] at h
  | false => exact ⟨rfl, (Prod.mk.inj h).2.symm⟩

theorem listed_empty (policy : Policy) :
    ∀ path : List String, (empty policy : Tree V).listed path = []
  | [] => rfl
  | _ :: _ => rfl

/-- The list at the end of keys is the one behind the first of them, which is made if need be. -/
theorem listed_cons (h : onward t.policy (t.find? key) = .ok parent) (path : List String) :
    t.listed (key :: path) = parent.listed path := by
  rw [listed, at?]
  revert h
  rcases hk : t.find? key with _ | (v | child) <;> simp only [onward]
  · split
    · simp
    · rintro h
      rw [← Except.ok.inj h, listed_empty]
      rfl
  · split
    · simp
    · rintro h
      rw [← Except.ok.inj h, listed_empty]
      rfl
  · rintro h
    rw [← Except.ok.inj h]
    rfl

/-- **A visit that makes way for an entry keeps the list.** The induction is on the keys; what a key
leads on to is put back under it. -/
theorem Ordered.opened : ∀ (path : List String) {t t' : Tree V}, t.Ordered →
    visit ensureOpen (path.map .key) t = (.ok (), t') →
      ∃ parent, t'.at? path = some parent ∧ parent.policy.isClosed = false ∧
        parent.appended = t.listed path
  | [], t, t', _, hvisit => by
    obtain ⟨hopen, rfl⟩ := ensureOpen_eq_ok hvisit
    exact ⟨t', rfl, hopen, rfl⟩
  | key :: path, t, t', h, hvisit => by
    rw [List.map_cons] at hvisit
    cases honward : Tree.onward t.policy (t.find? key) with
    | error c => simp [visit_key_of_error honward] at hvisit
    | ok child =>
      rw [visit_key h.sorted honward] at hvisit
      obtain ⟨hok, rfl⟩ := Prod.mk.inj hvisit
      obtain ⟨parent, hparent, hopen, hlist⟩ :=
        (h.onward honward).opened path (Prod.ext hok rfl)
      refine ⟨parent, ?_, hopen, ?_⟩
      · rw [at?_put, hparent]
      · rw [hlist, listed_cons honward]

/-- **Where way has been made, a visit changes nothing.** -/
theorem Ordered.visit_ensureOpen : ∀ (path : List String) {t parent : Tree V}, t.Ordered →
    t.at? path = some parent → parent.policy.isClosed = false →
      visit ensureOpen (path.map .key) t = (.ok (), t)
  | [], t, parent, _, hparent, hopen => by
    obtain rfl := Option.some.inj hparent
    simp [visit, ensureOpen, hopen]
  | key :: path, t, parent, h, hparent, hopen => by
    rw [at?] at hparent
    rcases hk : t.find? key with _ | (v | child)
    · simp [hk] at hparent
    · simp [hk] at hparent
    · rw [hk] at hparent
      have honward : Tree.onward t.policy (t.find? key) = .ok child := by rw [hk, Tree.onward]
      have ih := (h.onward honward).visit_ensureOpen path hparent hopen
      rw [List.map_cons, visit_key h.sorted honward, ih, put_of_find? h.sorted hk]

/-! ### Entries that are filled -/

/-- The entry that is filled with a record: its values are written one after the other. -/
def ofRecord (record : List (String × V)) : Tree V :=
  record.foldl (fun t p => t.put p.1 (.value p.2)) (empty .default)

theorem ofRecord_concat (record : List (String × V)) (key : String) (v : V) :
    ofRecord (record ++ [(key, v)]) = (ofRecord record).put key (.value v) := by
  rw [ofRecord, List.foldl_append]
  rfl

theorem policy_ofRecord (record : List (String × V)) : (ofRecord record).policy = .default := by
  induction record using List.reverseRecOn with
  | nil => rfl
  | append_singleton record p ih =>
    rw [ofRecord_concat]
    exact ih

/-- **An entry holds the value that its record gives to a key last.** -/
theorem find?_ofRecord (record : List (String × V)) (key : String) :
    (ofRecord record).find? key = (record.reverse.lookup key).map .value := by
  induction record using List.reverseRecOn with
  | nil => rfl
  | append_singleton record p ih =>
    obtain ⟨k, v⟩ := p
    rw [ofRecord_concat, find?_put, ih, List.reverse_concat, List.lookup_cons]
    by_cases hk : key = k
    · rw [if_pos hk, hk, beq_self_eq_true]
      rfl
    · rw [if_neg hk, beq_eq_false_iff_ne.mpr hk]

end Tree

/-! ### The lists of an arena -/

/-- **Keys lead to the tree of the scope that they lead to.** -/
theorem Arena.Sound.at?_unfold {a : Arena V} (h : a.Sound) : ∀ {path : List String} {id : ScopeId}
    {s : Scope V}, a.scopes[id]? = some s →
      (a.unfold id).at? path = (a.peek? id (path.map .key)).map a.unfold
  | [], _, _, _ => rfl
  | key :: path, id, s, hs => by
    rw [Tree.at?, List.map_cons, peek?, next?, hs, Option.bind_some, h.find?_unfold hs]
    rcases hk : s.find? key with _ | (v | next)
    · rfl
    · rfl
    · obtain ⟨t, ht, -⟩ := (h.scope id s hs).isChild _ _ (Scope.next?_key hk)
      exact h.at?_unfold ht

end ScopedConfig
