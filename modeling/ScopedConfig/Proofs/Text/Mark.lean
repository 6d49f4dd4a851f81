import ScopedConfig.Proofs.Text.Quote

/-!
# Marks outside quotes

A mark in a quote is a character like any other; outside quotes a search meets it, it can be
dropped, and two of them can stand next to each other. Dropping the marks keeps every quote as it
is, so the text that is left is scanned with the same quotes and has no mark left to drop.

Key definitions: `Text.StandsOutside`, `Text.dropOutside`, `Text.Doubled`.
Key theorems: `Text.pass?_eq_some_iff`, `Text.dropOutside_cons`, `Text.dropOutside_dropOutside`,
`Text.doubled_cons_iff`.
-/

namespace ScopedConfig.Text

variable {mark : Char}

/-! ### Where a mark stands -/

/-- A mark stands in the text at a place where no quote is open. -/
def StandsOutside (mark : Char) (q : Option Char) (cs : List Char) : Prop :=
  ∃ front behind, cs = front ++ mark :: behind ∧ front.foldl quoteAfter q = none

theorem not_standsOutside_nil (q : Option Char) : ¬StandsOutside mark q [] := by
  rintro ⟨front, behind, hcs, -⟩
  exact absurd hcs (by simp)

theorem standsOutside_cons_iff {q : Option Char} {c : Char} {cs : List Char} :
    StandsOutside mark q (c :: cs) ↔
      (q = none ∧ c = mark) ∨ StandsOutside mark (quoteAfter q c) cs := by
  constructor
  · rintro ⟨front, behind, hcs, hfront⟩
    cases front with
    | nil =>
      obtain ⟨rfl, rfl⟩ := List.cons.inj hcs
      exact .inl ⟨hfront, rfl⟩
    | cons d front =>
      obtain ⟨rfl, rfl⟩ := List.cons.inj hcs
      exact .inr ⟨front, behind, rfl, hfront⟩
  · rintro (⟨rfl, rfl⟩ | ⟨front, behind, rfl, hfront⟩)
    · exact ⟨[], cs, rfl, rfl⟩
    · exact ⟨c :: front, behind, rfl, hfront⟩

/-- **A search passes over the texts in which no mark stands outside quotes**, and comes out with
the quote that the text leaves open. -/
theorem pass?_eq_some_iff {q' : Option Char} : ∀ {cs : List Char} {q : Option Char},
    pass? mark q cs = some q' ↔ ¬StandsOutside mark q cs ∧ cs.foldl quoteAfter q = q'
  | [], q => by
    rw [pass?, Option.some.injEq, List.foldl_nil]
    exact (and_iff_right (not_standsOutside_nil q)).symm
  | c :: cs, q => by
    rw [pass?_cons_iff, pass?_eq_some_iff, standsOutside_cons_iff, not_or, and_assoc,
      List.foldl_cons]

/-! ### Dropping marks -/

/-- The text without the marks outside quotes. -/
def dropOutside (mark : Char) (q : Option Char) (cs : List Char) : List Char :=
  (splitOutside mark q cs).flatten

theorem flatten_consHead (c : Char) (ps : List (List Char)) :
    (consHead c ps).flatten = c :: ps.flatten := by
  cases ps <;> rfl

theorem dropOutside_cons (q : Option Char) (c : Char) (cs : List Char) :
    dropOutside mark q (c :: cs) =
      if q = none ∧ c = mark then dropOutside mark none cs
      else c :: dropOutside mark (quoteAfter q c) cs := by
  rw [dropOutside, splitOutside]
  split
  · rfl
  · exact flatten_consHead c _

theorem dropOutside_quoted (q c : Char) (cs : List Char) :
    dropOutside mark (some q) (c :: cs) = c :: dropOutside mark (quoteAfter (some q) c) cs := by
  rw [dropOutside_cons, if_neg (by simp)]

theorem dropOutside_mark (cs : List Char) :
    dropOutside mark none (mark :: cs) = dropOutside mark none cs := by
  rw [dropOutside_cons, if_pos ⟨rfl, rfl⟩]

theorem dropOutside_of_ne {c : Char} (hc : c ≠ mark) (cs : List Char) :
    dropOutside mark none (c :: cs) = c :: dropOutside mark (quoteAfter none c) cs := by
  rw [dropOutside_cons, if_neg fun h => hc h.2]

theorem dropOutside_dropOutside : ∀ (q : Option Char) (cs : List Char),
    dropOutside mark q (dropOutside mark q cs) = dropOutside mark q cs
  | _, [] => rfl
  | q, c :: cs => by
    rw [dropOutside_cons]
    by_cases hmark : q = none ∧ c = mark
    · rw [if_pos hmark, hmark.1]
      exact dropOutside_dropOutside none cs
    · rw [if_neg hmark, dropOutside_cons, if_neg hmark, dropOutside_dropOutside (quoteAfter q c) cs]

theorem pass?_dropOutside {other : Char} (hother : isQuote other = false) {q' : Option Char} :
    ∀ {cs : List Char} {q : Option Char}, pass? mark q cs = some q' →
      pass? mark q (dropOutside other q cs) = some q'
  | [], _, h => h
  | c :: cs, q, h => by
    obtain ⟨hpass, h⟩ := pass?_cons_iff.mp h
    have ih := pass?_dropOutside hother h
    rw [dropOutside_cons]
    by_cases hdrop : q = none ∧ c = other
    · rw [hdrop.1, hdrop.2, quoteAfter, hother] at ih
      rw [if_pos hdrop, hdrop.1]
      exact ih
    · rw [if_neg hdrop]
      exact pass?_cons_iff.mpr ⟨hpass, ih⟩

theorem count_dropOutside {d : Char} (hd : d ≠ mark) : ∀ (q : Option Char) (cs : List Char),
    (dropOutside mark q cs).count d = cs.count d
  | _, [] => rfl
  | q, c :: cs => by
    rw [dropOutside_cons]
    by_cases hmark : q = none ∧ c = mark
    · rw [if_pos hmark, count_dropOutside hd none cs, hmark.2, List.count_cons_of_ne (Ne.symm hd)]
    · rw [if_neg hmark, List.count_cons, count_dropOutside hd (quoteAfter q c) cs, List.count_cons]

/-! ### Two marks in a row -/

/-- Two marks stand next to each other outside quotes. -/
def Doubled (mark : Char) (q : Option Char) (cs : List Char) : Prop :=
  ∃ front behind, cs = front ++ mark :: mark :: behind ∧ front.foldl quoteAfter q = none

theorem not_doubled_nil (q : Option Char) : ¬Doubled mark q [] := by
  rintro ⟨front, behind, hcs, -⟩
  exact absurd hcs (by simp)

/-- **Two marks begin with the first character, or stand behind it.** -/
theorem doubled_cons_iff {q : Option Char} {c : Char} {cs : List Char} :
    Doubled mark q (c :: cs) ↔
      (q = none ∧ c = mark ∧ cs.head? = some mark) ∨ Doubled mark (quoteAfter q c) cs := by
  constructor
  · rintro ⟨front, behind, hcs, hfront⟩
    cases front with
    | nil =>
      obtain ⟨rfl, rfl⟩ := List.cons.inj hcs
      exact .inl ⟨hfront, rfl, rfl⟩
    | cons d front =>
      obtain ⟨rfl, rfl⟩ := List.cons.inj hcs
      exact .inr ⟨front, behind, rfl, hfront⟩
  · rintro (⟨rfl, rfl, hhead⟩ | ⟨front, behind, rfl, hfront⟩)
    · obtain ⟨behind, rfl⟩ := List.head?_eq_some_iff.mp hhead
      exact ⟨[], behind, rfl, rfl⟩
    · exact ⟨c :: front, behind, rfl, hfront⟩

/-- A text that a search passes over has no mark outside quotes, so no two of them. -/
theorem not_doubled_of_pass? {q q' : Option Char} {cs : List Char}
    (h : pass? mark q cs = some q') : ¬Doubled mark q cs := by
  rintro ⟨front, behind, hcs, hfront⟩
  exact (pass?_eq_some_iff.mp h).1 ⟨front, mark :: behind, hcs, hfront⟩

instance decidableDoubled (mark : Char) : ∀ (q : Option Char) (cs : List Char),
    Decidable (Doubled mark q cs)
  | q, [] => isFalse (not_doubled_nil q)
  | q, c :: cs =>
    have := decidableDoubled mark (quoteAfter q c) cs
    decidable_of_iff _ doubled_cons_iff.symm

end ScopedConfig.Text
