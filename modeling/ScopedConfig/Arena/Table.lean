/-!
# Tables

A table holds at most one thing under each key, in ascending order of the keys by code points. A
look-up depends on the key alone, a write changes what its key holds and nothing else, and writes
keep the order, so a table is determined by its look-ups.

Key definitions: `Table`, `Table.find?`, `Table.insert`, `Table.firstKey?`.
Key theorems: `Table.find?_insert`, `Table.mem_keys_insert`.
-/

namespace ScopedConfig

/-- Things under keys, in the order of the keys. -/
abbrev Table (α : Type) := List (String × α)

namespace Table

variable {α : Type}

/-- What a key holds. -/
def find? (key : String) : Table α → Option α
  | [] => none
  | (k, x) :: rest => if key = k then some x else find? key rest

/-- Writes under a key, in the place of what it held or else at the key's place in the order. -/
def insert (key : String) (x : α) : Table α → Table α
  | [] => [(key, x)]
  | (k, y) :: rest =>
    if key = k then (key, x) :: rest
    else if key < k then (key, x) :: (k, y) :: rest
    else (k, y) :: insert key x rest

/-- The first key that holds something with a property. -/
def firstKey? (p : α → Bool) : Table α → Option String
  | [] => none
  | (k, x) :: rest => if p x then some k else firstKey? p rest

/-- The keys in order. -/
def keys (t : Table α) : List String :=
  t.map (·.1)

/-! ### Small facts -/

/-- **A write is read back, and no other key notices it.** -/
theorem find?_insert (key other : String) (x : α) : ∀ t : Table α,
    find? other (insert key x t) = if other = key then some x else find? other t
  | [] => by simp [insert, find?]
  | (k, y) :: rest => by
    have ih := find?_insert key other x rest
    unfold insert
    split
    · rename_i h
      subst h
      by_cases ho : other = key <;> simp [find?, ho]
    · rename_i h
      split
      · by_cases ho : other = key <;> simp [find?, ho]
      · by_cases hk : other = k
        · subst hk
          simp [find?, Ne.symm h]
        · simp [find?, hk, ih]

theorem mem_keys_insert (key other : String) (x : α) (t : Table α) :
    other ∈ keys (insert key x t) ↔ other = key ∨ other ∈ keys t := by
  induction t with
  | nil => simp [insert, keys]
  | cons p rest ih =>
    obtain ⟨k, y⟩ := p
    simp only [keys, List.map_cons, List.mem_cons] at ih ⊢
    unfold insert
    split
    · rename_i h
      simp [h]
    · split
      · simp
      · simp only [List.map_cons, List.mem_cons, ih]
        exact or_left_comm

end Table

end ScopedConfig
