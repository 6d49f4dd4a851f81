/-!
# Pieces of a text

A scanner that cuts a text builds its list of pieces from the end: each character goes in front of
the piece that stands first.

Key definitions: `consHead`, `enclosed?`.
Key theorems: `mem_of_mem_intercalate`, `mem_intercalate_of_mem`, `eq_of_enclosed?`.
-/

namespace ScopedConfig.Text

/-- Puts a character in front of the first piece, which is made when there is none. -/
def consHead (c : Char) : List (List Char) → List (List Char)
  | [] => [[c]]
  | piece :: rest => (c :: piece) :: rest

/-- The text between `left` and `right`, when the text starts with one, ends with the other and
the two are not the same character of it. -/
def enclosed? (left right : Char) : List Char → Option (List Char)
  | [] => none
  | c :: cs => if c = left ∧ cs.getLast? = some right then some cs.dropLast else none

/-! ### Small facts -/

theorem consHead_ne_nil (c : Char) (ps : List (List Char)) : consHead c ps ≠ [] := by
  cases ps <;> simp [consHead]

/-- Characters that go in front of the pieces one by one go in front of the first piece. -/
theorem foldr_consHead (p : List Char) (ps : List (List Char)) :
    ∀ cs : List Char, cs.foldr consHead (p :: ps) = (cs ++ p) :: ps
  | [] => rfl
  | c :: cs => by
    rw [List.foldr_cons, foldr_consHead p ps cs]
    rfl

theorem foldr_consHead_nil : ∀ {cs : List Char}, cs ≠ [] → cs.foldr consHead [] = [cs]
  | [], h => absurd rfl h
  | [c], _ => rfl
  | c :: d :: cs, _ => by
    rw [List.foldr_cons, foldr_consHead_nil (List.cons_ne_nil d cs)]
    rfl

theorem mem_of_mem_intercalate {c : Char} {sep : List Char} : ∀ {ts : List (List Char)},
    c ∈ sep.intercalate ts → c ∈ sep ∨ ∃ t ∈ ts, c ∈ t
  | [], h => absurd h List.not_mem_nil
  | [t], h => by
    rw [List.intercalate_singleton] at h
    exact .inr ⟨t, List.mem_cons_self .., h⟩
  | t :: u :: ts, h => by
    rw [List.intercalate_cons_cons, List.mem_append, List.mem_append] at h
    rcases h with (h | h) | h
    · exact .inr ⟨t, List.mem_cons_self .., h⟩
    · exact .inl h
    · exact (mem_of_mem_intercalate h).imp_right fun ⟨v, hv, hc⟩ =>
        ⟨v, List.mem_cons_of_mem t hv, hc⟩

theorem mem_intercalate_of_mem {c : Char} {sep t : List Char} : ∀ {ts : List (List Char)},
    t ∈ ts → c ∈ t → c ∈ sep.intercalate ts
  | [], ht, _ => absurd ht List.not_mem_nil
  | [u], ht, hc => by
    rw [List.intercalate_singleton]
    exact List.mem_singleton.mp ht ▸ hc
  | u :: v :: ts, ht, hc => by
    rw [List.intercalate_cons_cons, List.mem_append, List.mem_append]
    rcases List.mem_cons.mp ht with rfl | ht
    · exact .inl (.inl hc)
    · exact .inr (mem_intercalate_of_mem ht hc)

theorem enclosed?_cons_concat (left right : Char) (inner : List Char) :
    enclosed? left right (left :: inner ++ [right]) = some inner := by
  rw [List.cons_append, enclosed?, if_pos ⟨rfl, by simp⟩, List.dropLast_concat]

theorem enclosed?_of_head_ne {left right : Char} {cs : List Char} (h : cs.head? ≠ some left) :
    enclosed? left right cs = none := by
  cases cs with
  | nil => rfl
  | cons c cs => exact if_neg fun hc => h (congrArg some hc.1)

theorem eq_of_enclosed? {left right : Char} {cs inner : List Char}
    (h : enclosed? left right cs = some inner) : cs = left :: inner ++ [right] := by
  cases cs with
  | nil => simp [enclosed?] at h
  | cons c cs =>
    simp only [enclosed?, Option.ite_none_right_eq_some, Option.some.injEq] at h
    obtain ⟨⟨rfl, hlast⟩, rfl⟩ := h
    have hne : cs ≠ [] := by
      rintro rfl
      simp at hlast
    have hright : cs.getLast hne = right := by
      rw [List.getLast?_eq_some_getLast hne] at hlast
      exact Option.some.inj hlast
    rw [List.cons_append, ← hright, List.dropLast_concat_getLast]

theorem length_of_enclosed? {left right : Char} {cs inner : List Char}
    (h : enclosed? left right cs = some inner) : inner.length + 2 = cs.length := by
  rw [eq_of_enclosed? h]
  simp

end ScopedConfig.Text
