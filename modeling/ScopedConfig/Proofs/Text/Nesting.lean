import Mathlib.Data.List.Basic
import ScopedConfig.Text.Nesting

/-!
# Delimited texts

A scan that is neither cut nor closes a bracket that it did not open passes over a text. What it
passes over it would pass over just as well inside more brackets, and it leaves the text in one
piece. A text that is passed over from outside everything to outside everything is delimited; such
texts with commas between them are cut exactly at these commas, and in brackets they are delimited
again.

Key definitions: `Nesting.next?`, `Nesting.scan?`, `Text.Delimited`.
Key theorems: `Nesting.scan?_deepen`, `Text.splitItems_append`, `Text.splitItems_intercalate`,
`Text.Delimited.bracketed`.
-/

namespace ScopedConfig.Text

namespace Nesting

/-- Where the scan stands after one more character, unless it cuts or closes too much there. -/
def next? (s : Nesting) (c : Char) : Option Nesting :=
  if s.quote = none ∧ s.depth = 0 ∧ (c = ',' ∨ c = ']' ∨ c = '}') then none else some (s.after c)

/-- Where the scan stands behind a text that it passes over. -/
def scan? (s : Nesting) (cs : List Char) : Option Nesting :=
  cs.foldlM next? s

/-- The same place inside more brackets. -/
def deepen (n : Nat) (s : Nesting) : Nesting :=
  { s with depth := s.depth + n }

variable {s t u : Nesting} {c : Char} {cs ds : List Char}

theorem scan?_cons_iff : s.scan? (c :: cs) = some u ↔
    ∃ t, s.next? c = some t ∧ t.scan? cs = some u := by
  rw [scan?, List.foldlM_cons]
  exact Option.bind_eq_some_iff

theorem scan?_append (h : s.scan? cs = some t) (h' : t.scan? ds = some u) :
    s.scan? (cs ++ ds) = some u := by
  rw [scan?, List.foldlM_append]
  exact Option.bind_eq_some_iff.mpr ⟨t, h, h'⟩

theorem scan?_singleton (h : s.next? c = some t) : s.scan? [c] = some t :=
  scan?_cons_iff.mpr ⟨t, h, rfl⟩

/-- A step inside more brackets is the same step, unless it closes one too many. -/
theorem after_deepen (n : Nat) (h : ¬(s.quote = none ∧ s.depth = 0 ∧ (c = ']' ∨ c = '}'))) :
    (s.deepen n).after c = (s.after c).deepen n := by
  obtain ⟨quote, isEscaped, depth⟩ := s
  cases quote with
  | some q =>
    cases isEscaped with
    | true => rfl
    | false =>
      by_cases backslash : c = '\\'
      · simp [after, deepen, backslash]
      by_cases closing : c = q
      · subst closing
        simp [after, deepen, backslash]
      · simp [after, deepen, backslash, closing]
  | none =>
    by_cases quote : isQuote c = true
    · simp [after, deepen, quote]
    by_cases opening : c = '[' ∨ c = '{'
    · simp [after, deepen, quote, opening, Nat.add_right_comm]
    by_cases closing : c = ']' ∨ c = '}'
    · have hdepth : depth ≠ 0 := fun hd => h ⟨rfl, hd, closing⟩
      have hsub : depth + n - 1 = depth - 1 + n := by omega
      simp [after, deepen, quote, opening, closing, hsub]
    · simp [after, deepen, quote, opening, closing]

theorem next?_deepen (n : Nat) (h : s.next? c = some t) :
    (s.deepen n).next? c = some (t.deepen n) := by
  unfold next? at h ⊢
  split at h
  · simp at h
  · rename_i hpass
    obtain rfl := Option.some.inj h
    have hpass' : ¬((s.deepen n).quote = none ∧ (s.deepen n).depth = 0 ∧
        (c = ',' ∨ c = ']' ∨ c = '}')) := fun ⟨hq, hd, hc⟩ =>
      hpass ⟨hq, Nat.eq_zero_of_add_eq_zero_right hd, hc⟩
    rw [if_neg hpass', after_deepen n fun ⟨hq, hd, hc⟩ => hpass ⟨hq, hd, .inr hc⟩]

/-- **What is passed over is passed over inside more brackets.** -/
theorem scan?_deepen (n : Nat) : ∀ {cs : List Char} {s t : Nesting}, s.scan? cs = some t →
    (s.deepen n).scan? cs = some (t.deepen n)
  | [], s, t, h => by
    obtain rfl := Option.some.inj h
    rfl
  | c :: cs, s, t, h => by
    obtain ⟨u, hu, h⟩ := scan?_cons_iff.mp h
    exact scan?_cons_iff.mpr ⟨u.deepen n, next?_deepen n hu, scan?_deepen n h⟩

theorem next?_of_plain (n : Nat) (h : isQuote c = false) (h' : c ∉ [',', '[', ']', '{', '}']) :
    next? ⟨none, false, n⟩ c = some ⟨none, false, n⟩ := by
  simp only [List.mem_cons, List.not_mem_nil, or_false, not_or] at h'
  obtain ⟨comma, left, right, left', right'⟩ := h'
  simp [next?, after, h, comma, left, right, left', right']

theorem scan?_of_plain (n : Nat) : ∀ {cs : List Char},
    (∀ c ∈ cs, isQuote c = false ∧ c ∉ [',', '[', ']', '{', '}']) →
      scan? ⟨none, false, n⟩ cs = some ⟨none, false, n⟩
  | [], _ => rfl
  | c :: cs, h => by
    obtain ⟨hq, hm⟩ := h c (List.mem_cons_self ..)
    exact scan?_cons_iff.mpr ⟨_, next?_of_plain n hq hm,
      scan?_of_plain n fun d hd => h d (List.mem_cons_of_mem _ hd)⟩

theorem next?_of_quoted (n : Nat) {q : Char} (h : c ≠ q) (h' : c ≠ '\\') :
    next? ⟨some q, false, n⟩ c = some ⟨some q, false, n⟩ := by
  simp [next?, after, h, h']

theorem scan?_of_quoted (n : Nat) {q : Char} : ∀ {cs : List Char},
    (∀ c ∈ cs, c ≠ q ∧ c ≠ '\\') →
      scan? ⟨some q, false, n⟩ cs = some ⟨some q, false, n⟩
  | [], _ => rfl
  | c :: cs, h => by
    obtain ⟨hq, hb⟩ := h c (List.mem_cons_self ..)
    exact scan?_cons_iff.mpr ⟨_, next?_of_quoted n hq hb,
      scan?_of_quoted n fun d hd => h d (List.mem_cons_of_mem _ hd)⟩

/-- A text in quotes is passed over with its quotes, if it leaves them as it found them. -/
theorem scan?_enclosed (n : Nat) {q : Char} (hq : isQuote q = true)
    (h : scan? ⟨some q, false, n⟩ cs = some ⟨some q, false, n⟩) :
    scan? ⟨none, false, n⟩ (q :: cs ++ [q]) = some ⟨none, false, n⟩ := by
  have hq' : q = '\'' ∨ q = '"' := by simpa [isQuote] using hq
  have hopen : next? ⟨none, false, n⟩ q = some ⟨some q, false, n⟩ := by
    rcases hq' with rfl | rfl <;> simp [next?, after, isQuote]
  have hclose : next? ⟨some q, false, n⟩ q = some ⟨none, false, n⟩ := by
    rcases hq' with rfl | rfl <;> simp [next?, after]
  exact scan?_cons_iff.mpr ⟨_, hopen, scan?_append h (scan?_singleton hclose)⟩

end Nesting

/-! ### Pieces -/

/-- **What is passed over stays in one piece.** -/
theorem splitItems_append (rest : List Char) : ∀ {cs : List Char} {s t : Nesting},
    s.scan? cs = some t → splitItems s (cs ++ rest) = cs.foldr consHead (splitItems t rest)
  | [], s, t, h => by
    obtain rfl := Option.some.inj h
    rfl
  | c :: cs, s, t, h => by
    obtain ⟨u, hu, h⟩ := Nesting.scan?_cons_iff.mp h
    unfold Nesting.next? at hu
    split at hu
    · simp at hu
    · rename_i hpass
      obtain rfl := Option.some.inj hu
      have hcut : ¬(s.quote = none ∧ s.depth = 0 ∧ c = ',') := fun ⟨hq, hd, hc⟩ =>
        hpass ⟨hq, hd, .inl hc⟩
      rw [List.cons_append, splitItems, if_neg hcut, splitItems_append rest h, List.foldr_cons]

/-! ### Delimited texts -/

/-- The scan passes over the text and is outside everything again. -/
def Delimited (cs : List Char) : Prop :=
  Nesting.outside.scan? cs = some .outside

instance (cs : List Char) : Decidable (Delimited cs) :=
  inferInstanceAs (Decidable (_ = _))

namespace Delimited

variable {cs : List Char}

theorem scan? (h : Delimited cs) (n : Nat) :
    Nesting.scan? ⟨none, false, n⟩ cs = some ⟨none, false, n⟩ := by
  have hn := Nesting.scan?_deepen n h
  simpa only [Nesting.deepen, Nesting.outside, Nat.zero_add] using hn

theorem blank_cons (h : Delimited cs) : Delimited (' ' :: cs) :=
  Nesting.scan?_cons_iff.mpr ⟨.outside, rfl, h⟩

end Delimited

theorem scan?_intercalate (n : Nat) : ∀ {items : List (List Char)},
    (∀ t ∈ items, Delimited t) →
      Nesting.scan? ⟨none, false, n + 1⟩ ([','].intercalate items) = some ⟨none, false, n + 1⟩
  | [], _ => rfl
  | [t], h => by
    rw [List.intercalate_singleton]
    exact (h t (List.mem_cons_self ..)).scan? (n + 1)
  | t :: u :: rest, h => by
    have ih := scan?_intercalate n fun v hv => h v (List.mem_cons_of_mem t hv)
    have ht := (h t (List.mem_cons_self ..)).scan? (n + 1)
    have hcomma : Nesting.next? ⟨none, false, n + 1⟩ ',' = some ⟨none, false, n + 1⟩ := rfl
    rw [List.intercalate_cons_cons]
    exact Nesting.scan?_append (Nesting.scan?_append ht (Nesting.scan?_singleton hcomma)) ih

/-- **Delimited texts in brackets are delimited.** -/
theorem Delimited.bracketed {items : List (List Char)} (h : ∀ t ∈ items, Delimited t) :
    Delimited ('[' :: [','].intercalate items ++ [']']) := by
  refine Nesting.scan?_cons_iff.mpr ⟨⟨none, false, 1⟩, rfl, ?_⟩
  exact Nesting.scan?_append (scan?_intercalate 0 h) (Nesting.scan?_singleton rfl)

/-- **Delimited texts are cut at the commas between them.** -/
theorem splitItems_intercalate : ∀ {items : List (List Char)}, items ≠ [] →
    (∀ t ∈ items, Delimited t) → splitItems .outside ([','].intercalate items) = items
  | [], hne, _ => absurd rfl hne
  | [t], _, h => by
    have ht := splitItems_append [] (h t (List.mem_cons_self ..))
    rw [List.append_nil] at ht
    rw [List.intercalate_singleton, ht, splitItems, foldr_consHead, List.append_nil]
  | t :: u :: rest, _, h => by
    have ih := splitItems_intercalate (List.cons_ne_nil u rest)
      fun v hv => h v (List.mem_cons_of_mem t hv)
    rw [List.intercalate_cons_cons, List.append_assoc,
      splitItems_append _ (h t (List.mem_cons_self ..)), List.singleton_append, splitItems,
      if_pos ⟨rfl, rfl, rfl⟩, ih, foldr_consHead, List.append_nil]

end ScopedConfig.Text
