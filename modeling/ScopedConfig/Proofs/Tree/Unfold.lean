import ScopedConfig.Proofs.Arena.Walking
import ScopedConfig.Proofs.Tree.Basic

/-!
# Unfolding an arena

A scope is unfolded to the tree of all that is in it. In a sound arena what a scope holds has a
greater number, so the unfolding ends and is what the scope says of it: its policy, its entries and
its list, each scope in them unfolded.

Because a scope has one path, an arena that differs from another one in one scope unfolds to the
tree that differs along the path to it, and nowhere else. So what an operation does to one scope is
what it does to the tree at the end of a path.

Key definitions: `Scope.unfold`, `Arena.unfold`, `Arena.AgreesOff`.
Key theorems: `Arena.Sound.unfold_eq`, `Arena.Sound.unfold_of_unreached`,
`Arena.Sound.unfold_eq_modify`.
-/

namespace ScopedConfig

variable {V : Type}

/-- An entry with a tree in the place of its scope. -/
def Entry.unfold (f : ScopeId → Tree V) : Entry V → Item V (Tree V)
  | value v => .value v
  | scope id => .scope (f id)

/-- A scope with trees in the places of the scopes it holds. -/
def Scope.unfold (s : Scope V) (f : ScopeId → Tree V) : Tree V :=
  ⟨s.policy, s.entries.mapValues (Entry.unfold f), s.appended.map f⟩

namespace Arena

/-- The tree of what is in a scope, down to a depth. -/
def unfoldTo (a : Arena V) : Nat → ScopeId → Tree V
  | 0, _ => .empty .default
  | depth + 1, id =>
    match a.scopes[id]? with
    | none => .empty .default
    | some s => s.unfold (a.unfoldTo depth)

/-- The tree of what is in a scope. No chain of scopes is longer than their number. -/
def unfold (a : Arena V) (id : ScopeId) : Tree V :=
  a.unfoldTo a.size id

/-- Every scope of an arena but one stands in another arena as it is. -/
def AgreesOff (a b : Arena V) (id : ScopeId) : Prop :=
  ∀ (other : ScopeId) (s : Scope V), other ≠ id → a.scopes[other]? = some s →
    b.scopes[other]? = some s

end Arena

/-! ### One scope -/

namespace Scope

variable {s : Scope V} {f g : ScopeId → Tree V}

theorem find?_unfold (s : Scope V) (f : ScopeId → Tree V) (key : String) :
    (s.unfold f).find? key = (s.find? key).map (Entry.unfold f) :=
  Table.find?_mapValues (Entry.unfold f) key s.entries

theorem unfold_put (s : Scope V) (f : ScopeId → Tree V) (key : String) (entry : Entry V) :
    (s.put key entry).unfold f = (s.unfold f).put key (entry.unfold f) := by
  simp only [unfold, put, Tree.put, Table.mapValues_insert]

theorem unfold_adopt (s : Scope V) (f : ScopeId → Tree V) (child : ScopeId) :
    (s.adopt child).unfold f = (s.unfold f).adopt (f child) := by
  simp only [unfold, adopt, Tree.adopt, List.map_append, List.map_cons, List.map_nil]

theorem unfold_restrict (s : Scope V) (f : ScopeId → Tree V) (policy : Policy) :
    (s.restrict policy).unfold f = (s.unfold f).restrict policy :=
  rfl

theorem unfold_entry_congr {key : String} {entry : Entry V} (hk : s.find? key = some entry)
    (h : ∀ child, s.next? (.key key) = some child → f child = g child) :
    entry.unfold f = entry.unfold g := by
  cases entry with
  | value v => rfl
  | scope child => rw [Entry.unfold, h child (next?_key hk), Entry.unfold]

theorem unfold_appended_congr (h : ∀ i child, s.next? (.index i) = some child → f child = g child) :
    s.appended.map f = s.appended.map g := by
  refine List.map_congr_left fun child hc => ?_
  obtain ⟨i, hi⟩ := next?_of_mem_appended hc
  exact h i child hi

theorem unfold_congr (hs : s.entries.Sorted)
    (h : ∀ step child, s.next? step = some child → f child = g child) :
    s.unfold f = s.unfold g := by
  rw [unfold, unfold, unfold_appended_congr fun i => h (.index i)]
  rw [Table.mapValues_congr hs fun key entry hk => unfold_entry_congr hk (h (.key key))]

theorem unfold_entries_eq_modify {m : Tree V → Tree V} {key : String} {child : ScopeId}
    (hs : s.entries.Sorted) (hn : s.next? (.key key) = some child) (hm : g child = m (f child))
    (ho : ∀ other child', other ≠ key → s.next? (.key other) = some child' →
      g child' = f child') :
    s.entries.mapValues (Entry.unfold g) =
      (s.entries.mapValues (Entry.unfold f)).modify key (Item.change m) := by
  refine Table.mapValues_eq_modify hs (fun entry hk => ?_) fun other entry hne hk => ?_
  · cases entry with
    | value v => rfl
    | scope id =>
      obtain rfl := Option.some.inj ((next?_key hk).symm.trans hn)
      rw [Entry.unfold, hm]
      rfl
  · exact unfold_entry_congr hk fun child' => ho other child' hne

theorem unfold_appended_eq_modify {m : Tree V → Tree V} {i : Nat} {child : ScopeId}
    (hn : s.next? (.index i) = some child) (hm : g child = m (f child))
    (ho : ∀ j child', j ≠ i → s.next? (.index j) = some child' → g child' = f child') :
    s.appended.map g = (s.appended.map f).modify i m := by
  refine List.ext_getElem? fun j => ?_
  rw [List.getElem?_map, List.getElem?_modify, List.getElem?_map]
  by_cases hj : i = j
  · subst hj
    rw [next?] at hn
    simp [hn, hm]
  · cases hc : s.appended[j]? with
    | none => simp
    | some child' =>
      have hg : g child' = f child' := ho j child' (Ne.symm hj) hc
      simp [hj, hg]

/-- **A scope whose trees differ at one step is unfolded to what differs at this step.** -/
theorem unfold_eq_modifyNext {m : Tree V → Tree V} {step : Step} {child : ScopeId}
    (hs : s.entries.Sorted) (hn : s.next? step = some child) (hm : g child = m (f child))
    (ho : ∀ step' child', step' ≠ step → s.next? step' = some child' → g child' = f child') :
    s.unfold g = (s.unfold f).modifyNext m step := by
  cases step with
  | key key =>
    have happended : s.appended.map g = s.appended.map f :=
      unfold_appended_congr fun i child' => ho (.index i) child' (by simp)
    have hentries := unfold_entries_eq_modify hs hn hm fun other child' hne =>
      ho (.key other) child' (by simpa using hne)
    rw [unfold, happended, hentries]
    rfl
  | index i =>
    have hentries : s.entries.mapValues (Entry.unfold g) = s.entries.mapValues (Entry.unfold f) :=
      Table.mapValues_congr hs fun key entry hk =>
        unfold_entry_congr hk fun child' => ho (.key key) child' (by simp)
    have happended := unfold_appended_eq_modify hn hm fun j child' hne =>
      ho (.index j) child' (by simpa using hne)
    rw [unfold, hentries, happended]
    rfl

end Scope

/-! ### All scopes -/

namespace Arena

variable {a b : Arena V}

theorem unfoldTo_succ {id : ScopeId} {s : Scope V} (hs : a.scopes[id]? = some s) (depth : Nat) :
    a.unfoldTo (depth + 1) id = s.unfold (a.unfoldTo depth) := by
  simp only [unfoldTo, hs]

namespace Sound

/-- A depth that is enough makes no difference: what a scope holds has a greater number, so one step
less is enough for it. -/
theorem unfoldTo_eq (h : a.Sound) {id : ScopeId} {s : Scope V} (hs : a.scopes[id]? = some s) :
    ∀ n m : Nat, a.size ≤ id + n → a.size ≤ id + m → a.unfoldTo n id = a.unfoldTo m id := by
  refine h.held_induction (P := fun id => ∀ n m : Nat, a.size ≤ id + n → a.size ≤ id + m →
    a.unfoldTo n id = a.unfoldTo m id) ?_ id s hs
  intro id s hs ih n m hn hm
  have hpos : ∀ n, a.size ≤ id + n → ∃ k, n = k + 1 := fun n hn =>
    Nat.exists_eq_add_one.mpr (Nat.pos_of_lt_add_right (Nat.lt_of_lt_of_le (lt_size hs) hn))
  obtain ⟨n, rfl⟩ := hpos n hn
  obtain ⟨m, rfl⟩ := hpos m hm
  rw [unfoldTo_succ hs, unfoldTo_succ hs]
  refine Scope.unfold_congr (h.scope id s hs).sorted fun step child hc => ?_
  have hlt : id < child := h.lt_of_holds ⟨s, hs, hc⟩
  have hdeep : ∀ k, a.size ≤ id + (k + 1) → a.size ≤ child + k := fun k hk => by
    change id + 1 ≤ child at hlt
    calc a.size ≤ id + (k + 1) := hk
      _ = id + 1 + k := by rw [Nat.add_comm k, Nat.add_assoc]
      _ ≤ child + k := Nat.add_le_add_right hlt k
  exact ih step child hc n m (hdeep n hn) (hdeep m hm)

/-- **A scope is unfolded to what it says of the scopes in it, unfolded.** -/
theorem unfold_eq (h : a.Sound) {id : ScopeId} {s : Scope V} (hs : a.scopes[id]? = some s) :
    a.unfold id = s.unfold a.unfold := by
  have hdeep : a.size ≤ id + a.size := Nat.le_add_left a.size id
  rw [unfold, h.unfoldTo_eq hs a.size (a.size + 1) hdeep (Nat.le_succ_of_le hdeep),
    unfoldTo_succ hs]
  rfl

/-! ### What is read of an unfolded scope -/

variable {id : ScopeId} {s : Scope V}

theorem policy_unfold (h : a.Sound) (hs : a.scopes[id]? = some s) :
    (a.unfold id).policy = s.policy := by
  rw [h.unfold_eq hs]
  rfl

theorem find?_unfold (h : a.Sound) (hs : a.scopes[id]? = some s) (key : String) :
    (a.unfold id).find? key = (s.find? key).map (Entry.unfold a.unfold) := by
  rw [h.unfold_eq hs, Scope.find?_unfold]

theorem holds_unfold (h : a.Sound) (hs : a.scopes[id]? = some s) (key : String) :
    (a.unfold id).holds key = s.holds key := by
  rw [Tree.holds, h.find?_unfold hs, Option.isSome_map]
  rfl

theorem getElem?_appended_unfold (h : a.Sound) (hs : a.scopes[id]? = some s) (i : Nat) :
    (a.unfold id).appended[i]? = s.appended[i]?.map a.unfold := by
  rw [h.unfold_eq hs]
  exact List.getElem?_map

/-! ### A change of one scope -/

/-- **A scope from which the changed one is not reached unfolds as before.** -/
theorem unfold_of_unreached (ha : a.Sound) (hb : b.Sound) (hab : a.AgreesOff b id) {c : ScopeId}
    {s : Scope V} (hs : a.scopes[c]? = some s) (hpath : ∀ path, a.follow c path ≠ .ok id) :
    b.unfold c = a.unfold c := by
  revert hpath
  refine ha.held_induction (P := fun c => (∀ path, a.follow c path ≠ .ok id) →
    b.unfold c = a.unfold c) ?_ c s hs
  intro c s hs ih hpath
  have hne : c ≠ id := fun he => hpath [] (he ▸ rfl)
  rw [ha.unfold_eq hs, hb.unfold_eq (hab c s hne hs)]
  refine Scope.unfold_congr (ha.scope c s hs).sorted fun step child hc => ?_
  exact ih step child hc fun path hp =>
    hpath (step :: path) (follow_cons_iff.mpr ⟨child, ⟨s, hs, hc⟩, hp⟩)

theorem unfold_of_lt (ha : a.Sound) (hb : b.Sound) (hab : a.AgreesOff b id) {c : ScopeId}
    {s : Scope V} (hs : a.scopes[c]? = some s) (hlt : id < c) : b.unfold c = a.unfold c :=
  ha.unfold_of_unreached hb hab hs fun _ hp => absurd hlt (Nat.not_lt.mpr (ha.follow_le hp))

/-- The changed scope, as it was, says the same of the scopes in it. -/
theorem unfold_scope_eq (ha : a.Sound) (hb : b.Sound) (hab : a.AgreesOff b id) {s : Scope V}
    (hs : a.scopes[id]? = some s) : s.unfold b.unfold = a.unfold id := by
  rw [ha.unfold_eq hs]
  refine Scope.unfold_congr (ha.scope id s hs).sorted fun step child hc => ?_
  have hholds : a.Holds id step child := ⟨s, hs, hc⟩
  obtain ⟨t, ht⟩ := ha.exists_of_holds hholds
  exact ha.unfold_of_lt hb hab ht (ha.lt_of_holds hholds)

/-- **A change of one scope is a change at the end of the path to it.** The induction is on the
path: the scope under its first step leads on to the changed one, and no other scope beside it
does, since one path leads there. -/
theorem unfold_eq_modify (ha : a.Sound) (hb : b.Sound) (hab : a.AgreesOff b id)
    {f : Tree V → Tree V} (hf : b.unfold id = f (a.unfold id)) :
    ∀ {path : List Step} {c : ScopeId}, a.follow c path = .ok id →
      b.unfold c = (a.unfold c).modify f path
  | [], c, hp => by
    obtain rfl := Except.ok.inj hp
    exact hf
  | step :: path, c, hp => by
    obtain ⟨next, hn, hp'⟩ := follow_cons_iff.mp hp
    have ih := ha.unfold_eq_modify hb hab hf hp'
    have hne : c ≠ id := Nat.ne_of_lt (Nat.lt_of_lt_of_le (ha.lt_of_holds hn) (ha.follow_le hp'))
    obtain ⟨s, hs, hc⟩ := hn
    rw [ha.unfold_eq hs, hb.unfold_eq (hab c s hne hs)]
    refine Scope.unfold_eq_modifyNext (ha.scope c s hs).sorted hc ih fun step' child hne' hc' => ?_
    have hholds : a.Holds c step' child := ⟨s, hs, hc'⟩
    obtain ⟨t, ht⟩ := ha.exists_of_holds hholds
    refine ha.unfold_of_unreached hb hab ht fun path' hp'' => hne' ?_
    have hsame := ha.follow_unique (follow_cons_iff.mpr ⟨child, hholds, hp''⟩) hp
    exact (List.cons.inj hsame).1

theorem unfold_eq_modify_self (h : a.Sound) {path : List Step} {c : ScopeId}
    (hp : a.follow c path = .ok id) :
    a.unfold c = (a.unfold c).modify (fun _ => a.unfold id) path :=
  h.unfold_eq_modify h (fun _ _ _ hs => hs) rfl hp

end Sound

/-! ### The operations -/

theorem agreesOff_self (a : Arena V) (id : ScopeId) : a.AgreesOff a id :=
  fun _ _ _ hs => hs

theorem agreesOff_update (a : Arena V) (id : ScopeId) (f : Scope V → Scope V) :
    a.AgreesOff (a.update id f) id := by
  intro other s hne hs
  rw [getElem?_update_of_ne f (Ne.symm hne), hs]

theorem agreesOff_extend (a : Arena V) (parent id : ScopeId) :
    a.AgreesOff (a.extend parent) id := by
  intro other s _ hs
  exact getElem?_extend_of_some parent hs

theorem agreesOff_sprout (a : Arena V) (id : ScopeId) (key : String) :
    a.AgreesOff (a.sprout id key) id := by
  intro other s hne hs
  exact agreesOff_update _ id _ other s hne (agreesOff_extend a id id other s hne hs)

namespace Sound

variable {id : ScopeId} {s : Scope V}

theorem unfold_putValue (h : a.Sound) (hs : a.scopes[id]? = some s) (key : String) (v : V) :
    (a.update id (·.put key (.value v))).unfold id = (a.unfold id).put key (.value v) := by
  have hb := h.putValue hs key v
  rw [hb.unfold_eq (getElem?_update_self _ hs), Scope.unfold_put,
    h.unfold_scope_eq hb (agreesOff_update a id _) hs]
  rfl

theorem unfold_restrict (h : a.Sound) (hs : a.scopes[id]? = some s) (policy : Policy) :
    (a.update id (·.restrict policy)).unfold id = (a.unfold id).restrict policy := by
  have hb := h.restrict hs policy
  rw [hb.unfold_eq (getElem?_update_self _ hs), Scope.unfold_restrict,
    h.unfold_scope_eq hb (agreesOff_update a id _) hs]

/-- A scope that joins the list of the one it was created in joins as the tree it is. -/
theorem unfold_adopt {child : ScopeId} (h : a.Sound) (hs : a.scopes[id]? = some s)
    (hb : (a.update id (·.adopt child)).Sound) (hchild : a.IsChild child id) :
    (a.update id (·.adopt child)).unfold id = (a.unfold id).adopt (a.unfold child) := by
  have hlt : id < child := h.lt_of_isChild hchild
  obtain ⟨t, ht, -⟩ := hchild
  rw [hb.unfold_eq (getElem?_update_self _ hs), Scope.unfold_adopt,
    h.unfold_scope_eq hb (agreesOff_update a id _) hs,
    h.unfold_of_lt hb (agreesOff_update a id _) ht hlt]

theorem unfold_extend (h : a.Sound) {parent : ScopeId} (hb : (a.extend parent).Sound)
    (hs : a.scopes[id]? = some s) : (a.extend parent).unfold id = a.unfold id := by
  refine h.unfold_of_unreached hb (agreesOff_extend a parent a.size) hs fun path hp => ?_
  obtain ⟨t, ht⟩ := h.exists_of_follow ⟨s, hs⟩ hp
  exact absurd (lt_size ht) (Nat.lt_irrefl a.size)

theorem unfold_extend_self {parent : ScopeId} (hb : (a.extend parent).Sound) :
    (a.extend parent).unfold a.size = .empty .default :=
  hb.unfold_eq (getElem?_extend_self a parent)

theorem unfold_sprout (h : a.Sound) (hs : a.scopes[id]? = some s) (key : String) :
    (a.sprout id key).unfold id = (a.unfold id).put key (.scope (.empty .default)) ∧
      (a.sprout id key).unfold a.size = .empty .default := by
  have hb := h.sprout hs key
  have hne : id ≠ a.size := Nat.ne_of_lt (lt_size hs)
  have hself : (a.sprout id key).scopes[id]? = some (s.put key (.scope a.size)) :=
    getElem?_update_self _ (getElem?_extend_of_some id hs)
  have hnew : (a.sprout id key).scopes[a.size]? = some (.empty a.size (some id) .default) := by
    rw [Arena.sprout, getElem?_update_of_ne _ hne, getElem?_extend_self]
  have hempty : (a.sprout id key).unfold a.size = .empty .default := hb.unfold_eq hnew
  refine ⟨?_, hempty⟩
  rw [hb.unfold_eq hself, Scope.unfold_put, h.unfold_scope_eq hb (agreesOff_sprout a id key) hs,
    Entry.unfold, hempty]

end Sound

end Arena

end ScopedConfig
