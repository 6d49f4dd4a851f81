import ScopedConfig.Arena.Table

/-!
# Ordered tables

A table that is only written by `Table.insert` has its keys in ascending order, so no key stands in
it twice, and what stands in it is what a look-up finds. A write under a key that is there keeps the
keys. What the keys hold can be mapped, or changed under one key; maps that differ under one key
alone differ by such a change. Ordered tables with the same look-ups are equal, so writes under
different keys may be done in either order.

Key definitions: `Table.Sorted`, `Table.mapValues`, `Table.modify`.
Key theorems: `Table.sorted_insert`, `Table.keys_insert_of_mem`, `Table.find?_eq_some_of_mem`,
`Table.mapValues_eq_modify`, `Table.Sorted.ext`, `Table.insert_comm`.
-/

namespace ScopedConfig.Table

variable {α β : Type}

/-! ### Order -/

/-- The keys ascend, so that none stands twice. -/
def Sorted (t : Table α) : Prop :=
  (keys t).Pairwise (· < ·)

instance (t : Table α) : Decidable (Sorted t) :=
  inferInstanceAs (Decidable (List.Pairwise _ _))

theorem sorted_nil : Sorted ([] : Table α) :=
  List.Pairwise.nil

theorem sorted_cons {k : String} {x : α} {t : Table α} :
    Sorted ((k, x) :: t) ↔ (∀ k' ∈ keys t, k < k') ∧ Sorted t :=
  List.pairwise_cons

theorem lt_of_ne_of_not_lt {a b : String} (hne : a ≠ b) (hlt : ¬ a < b) : b < a := by
  rcases Std.lt_trichotomy a b with h | h | h
  · exact absurd h hlt
  · exact absurd h hne
  · exact h

theorem find?_eq_none_iff (key : String) : ∀ t : Table α, find? key t = none ↔ key ∉ keys t
  | [] => by simp [find?, keys]
  | (k, x) :: t => by
    have ih := find?_eq_none_iff key t
    simp only [keys, List.map_cons, List.mem_cons, not_or] at ih ⊢
    unfold find?
    by_cases hk : key = k
    · simp [hk]
    · rw [if_neg hk, ih]
      exact ⟨fun h => ⟨hk, h⟩, fun h => h.2⟩

theorem mem_keys_of_find? {key : String} {x : α} {t : Table α} (h : find? key t = some x) :
    key ∈ keys t := by
  refine Decidable.byContradiction fun hk => ?_
  rw [(find?_eq_none_iff key t).mpr hk] at h
  exact absurd h (by simp)

/-- **A look-up finds what stands in the table.** -/
theorem find?_eq_some_of_mem {key : String} {x : α} :
    ∀ {t : Table α}, Sorted t → (key, x) ∈ t → find? key t = some x
  | [], _, h => absurd h List.not_mem_nil
  | (k, y) :: t, hs, h => by
    obtain ⟨hk, hs⟩ := sorted_cons.mp hs
    rcases List.mem_cons.mp h with h | h
    · obtain ⟨rfl, rfl⟩ := Prod.mk.inj h
      rw [find?, if_pos rfl]
    · have hlt : k < key := hk key (List.mem_map.mpr ⟨_, h, rfl⟩)
      rw [find?, if_neg (String.ne_of_lt hlt).symm]
      exact find?_eq_some_of_mem hs h

theorem mem_of_find? {key : String} {x : α} : ∀ {t : Table α}, find? key t = some x → (key, x) ∈ t
  | [], h => by simp [find?] at h
  | (k, y) :: t, h => by
    rw [find?] at h
    by_cases hk : key = k
    · rw [if_pos hk] at h
      rw [hk, Option.some.inj h]
      exact List.mem_cons_self ..
    · rw [if_neg hk] at h
      exact List.mem_cons_of_mem _ (mem_of_find? h)

theorem exists_of_firstKey? {p : α → Bool} {key : String} : ∀ {t : Table α},
    firstKey? p t = some key → ∃ x, (key, x) ∈ t ∧ p x = true
  | [], h => by simp [firstKey?] at h
  | (k, x) :: t, h => by
    rw [firstKey?] at h
    by_cases hx : p x = true
    · rw [if_pos hx] at h
      exact ⟨x, Option.some.inj h ▸ List.mem_cons_self .., hx⟩
    · rw [if_neg hx] at h
      obtain ⟨y, hy, hp⟩ := exists_of_firstKey? h
      exact ⟨y, List.mem_cons_of_mem _ hy, hp⟩

theorem exists_firstKey?_of_mem {p : α → Bool} {key : String} {x : α} (hx : p x = true) :
    ∀ {t : Table α}, (key, x) ∈ t → ∃ first, firstKey? p t = some first
  | (k, y) :: t, h => by
    rw [firstKey?]
    by_cases hy : p y = true
    · exact ⟨k, if_pos hy⟩
    · rw [if_neg hy]
      rcases List.mem_cons.mp h with heq | hm
      · obtain ⟨-, rfl⟩ := Prod.mk.inj heq
        exact absurd hx hy
      · exact exists_firstKey?_of_mem hx hm

theorem sorted_insert (key : String) (x : α) : ∀ {t : Table α}, Sorted t → Sorted (insert key x t)
  | [], _ => List.pairwise_singleton ..
  | (k, y) :: t, hs => by
    obtain ⟨hk, ht⟩ := sorted_cons.mp hs
    unfold insert
    split
    · rename_i he
      subst he
      exact sorted_cons.mpr ⟨hk, ht⟩
    · rename_i hne
      split
      · rename_i hlt
        refine sorted_cons.mpr ⟨fun k' hk' => ?_, hs⟩
        rcases List.mem_cons.mp hk' with rfl | hk'
        · exact hlt
        · exact String.lt_trans hlt (hk k' hk')
      · rename_i hlt
        refine sorted_cons.mpr ⟨fun k' hk' => ?_, sorted_insert key x ht⟩
        rcases (mem_keys_insert key k' x t).mp hk' with rfl | hk'
        · exact lt_of_ne_of_not_lt hne hlt
        · exact hk k' hk'

theorem keys_insert_of_mem {key : String} (x : α) :
    ∀ {t : Table α}, Sorted t → key ∈ keys t → keys (insert key x t) = keys t
  | [], _, h => absurd h List.not_mem_nil
  | (k, y) :: t, hs, h => by
    obtain ⟨hk, ht⟩ := sorted_cons.mp hs
    unfold insert
    split
    · rename_i he
      rw [he]
      rfl
    · rename_i hne
      have hmem : key ∈ keys t := (List.mem_cons.mp h).resolve_left hne
      rw [if_neg (String.lt_asymm (hk key hmem))]
      show k :: keys (insert key x t) = k :: keys t
      rw [keys_insert_of_mem x ht hmem]

/-! ### Mapping -/

/-- Maps what the keys hold. -/
def mapValues (f : α → β) (t : Table α) : Table β :=
  t.map fun p => (p.1, f p.2)

theorem find?_mapValues (f : α → β) (key : String) :
    ∀ t : Table α, find? key (mapValues f t) = (find? key t).map f
  | [] => rfl
  | (k, x) :: t => by
    have ih := find?_mapValues f key t
    show (if key = k then some (f x) else find? key (mapValues f t)) = _
    rw [ih, find?]
    split <;> rfl

theorem mapValues_insert (f : α → β) (key : String) (x : α) :
    ∀ t : Table α, mapValues f (insert key x t) = insert key (f x) (mapValues f t)
  | [] => rfl
  | (k, y) :: t => by
    have ih := mapValues_insert f key x t
    show _ = if key = k then _ else if key < k then _ else
      (k, f y) :: insert key (f x) (mapValues f t)
    rw [← ih, insert]
    split
    · rfl
    · split <;> rfl

theorem mapValues_congr {f g : α → β} {t : Table α} (hs : Sorted t)
    (h : ∀ key x, find? key t = some x → f x = g x) : mapValues f t = mapValues g t := by
  refine List.map_congr_left fun p hp => ?_
  rw [h p.1 p.2 (find?_eq_some_of_mem hs hp)]

/-- Changes what a key holds. -/
def modify (key : String) (f : α → α) : Table α → Table α
  | [] => []
  | (k, x) :: t => if key = k then (k, f x) :: t else (k, x) :: modify key f t

theorem modify_modify (key : String) (f g : α → α) :
    ∀ t : Table α, modify key g (modify key f t) = modify key (fun x => g (f x)) t
  | [] => rfl
  | (k, x) :: t => by
    have ih := modify_modify key f g t
    unfold modify
    by_cases hk : key = k
    · simp [hk, modify]
    · simp [hk, modify, ih]

theorem find?_modify (key other : String) (f : α → α) : ∀ t : Table α,
    find? other (modify key f t) = if other = key then (find? key t).map f else find? other t
  | [] => by simp [modify, find?]
  | (k, x) :: t => by
    have ih := find?_modify key other f t
    by_cases hk : key = k
    · subst hk
      by_cases ho : other = key <;> simp [modify, find?, ho]
    · by_cases ho : other = k
      · subst ho
        simp [modify, find?, hk, Ne.symm hk]
      · simp [modify, find?, hk, ho, ih]

/-- **Maps that differ under one key alone differ by a change of it.** -/
theorem mapValues_eq_modify {f g : α → β} {m : β → β} {key : String} :
    ∀ {t : Table α}, Sorted t → (∀ x, find? key t = some x → g x = m (f x)) →
      (∀ other x, other ≠ key → find? other t = some x → g x = f x) →
      mapValues g t = modify key m (mapValues f t)
  | [], _, _, _ => rfl
  | (k, x) :: t, hs, hm, ho => by
    obtain ⟨hlt, ht⟩ := sorted_cons.mp hs
    show (k, g x) :: mapValues g t =
      if key = k then (k, m (f x)) :: mapValues f t
      else (k, f x) :: modify key m (mapValues f t)
    -- a look-up behind the first key goes past it
    have hne : ∀ other y, find? other t = some y → other ≠ k := fun other y hy =>
      (String.ne_of_lt (hlt other (mem_keys_of_find? hy))).symm
    have hfind : ∀ other y, find? other t = some y → find? other ((k, x) :: t) = some y :=
      fun other y hy => by rw [find?, if_neg (hne other y hy)]; exact hy
    by_cases hk : key = k
    · rw [if_pos hk, hm x (by rw [find?, if_pos hk]), mapValues_congr (f := g) (g := f) ht]
      exact fun other y hy => ho other y (hk ▸ hne other y hy) (hfind other y hy)
    · rw [if_neg hk, ho k x (Ne.symm hk) (by rw [find?, if_pos rfl])]
      rw [mapValues_eq_modify ht (fun y hy => hm y (hfind key y hy))
        (fun other y hother hy => ho other y hother (hfind other y hy))]

/-! ### Tables with the same look-ups -/

theorem keys_mapValues (f : α → β) (t : Table α) : keys (mapValues f t) = keys t :=
  List.map_map

theorem keys_modify (key : String) (f : α → α) : ∀ t : Table α, keys (modify key f t) = keys t
  | [] => rfl
  | (k, x) :: t => by
    have ih := keys_modify key f t
    unfold modify
    split
    · rfl
    · exact congrArg (k :: ·) ih

/-- A look-up that finds something finds it at the first key or behind it. -/
theorem eq_or_lt_of_find? {k key : String} {x y : α} {t : Table α} (hs : Sorted ((k, x) :: t))
    (h : find? key ((k, x) :: t) = some y) : key = k ∨ k < key :=
  (List.mem_cons.mp (mem_keys_of_find? h)).imp_right ((sorted_cons.mp hs).1 key)

theorem find?_tail_eq_none {k : String} {x : α} {t : Table α} (hs : Sorted ((k, x) :: t)) :
    find? k t = none :=
  (find?_eq_none_iff k t).mpr fun hk => String.lt_irrefl k ((sorted_cons.mp hs).1 k hk)

/-- **Ordered tables are determined by their look-ups.** The induction is on both tables: the first
key of each is found in the other one, so neither is less than the other. -/
theorem Sorted.ext : ∀ {t u : Table α}, Sorted t → Sorted u →
    (∀ key, find? key t = find? key u) → t = u
  | [], [], _, _, _ => rfl
  | [], (k, x) :: u, _, _, h => absurd (h k) (by simp [find?])
  | (k, x) :: t, [], _, _, h => absurd (h k) (by simp [find?])
  | (k, x) :: t, (l, y) :: u, ht, hu, h => by
    have hx : find? k ((k, x) :: t) = some x := by rw [find?, if_pos rfl]
    have hy : find? l ((l, y) :: u) = some y := by rw [find?, if_pos rfl]
    obtain rfl : k = l := by
      rcases eq_or_lt_of_find? hu ((h k).symm.trans hx) with hkl | hlt
      · exact hkl
      · rcases eq_or_lt_of_find? ht ((h l).trans hy) with hlk | hlt'
        · exact hlk.symm
        · exact absurd hlt' (String.lt_asymm hlt)
    obtain rfl : x = y := Option.some.inj (hx.symm.trans ((h k).trans hy))
    have htail : t = u := by
      refine Sorted.ext (sorted_cons.mp ht).2 (sorted_cons.mp hu).2 fun key => ?_
      by_cases hk : key = k
      · rw [hk, find?_tail_eq_none ht, find?_tail_eq_none hu]
      · have hkey := h key
        rwa [find?, find?, if_neg hk, if_neg hk] at hkey
    rw [htail]

variable {t : Table α} {key other : String} {x y : α}

theorem insert_insert (hs : Sorted t) : insert key y (insert key x t) = insert key y t := by
  refine Sorted.ext (sorted_insert key y (sorted_insert key x hs)) (sorted_insert key y hs)
    fun k => ?_
  simp only [find?_insert]
  split <;> rfl

/-- **Writes under different keys may be done in either order.** -/
theorem insert_comm (hs : Sorted t) (hne : key ≠ other) :
    insert other y (insert key x t) = insert key x (insert other y t) := by
  refine Sorted.ext (sorted_insert other y (sorted_insert key x hs))
    (sorted_insert key x (sorted_insert other y hs)) fun k => ?_
  simp only [find?_insert]
  by_cases hk : k = key
  · rw [if_pos hk, if_pos hk, if_neg (hk ▸ hne)]
  · rw [if_neg hk, if_neg hk]

theorem insert_of_find? (hs : Sorted t) (h : find? key t = some x) : insert key x t = t := by
  refine Sorted.ext (sorted_insert key x hs) hs fun k => ?_
  rw [find?_insert]
  split
  · rename_i hk
    rw [hk, h]
  · rfl

theorem modify_eq_insert (hs : Sorted t) (f : α → α) (h : find? key t = some x) :
    modify key f t = insert key (f x) t := by
  have hsorted : Sorted (modify key f t) := by
    rw [Sorted, keys_modify]
    exact hs
  refine Sorted.ext hsorted (sorted_insert key (f x) hs) fun k => ?_
  rw [find?_modify, find?_insert, h]
  rfl

end ScopedConfig.Table
