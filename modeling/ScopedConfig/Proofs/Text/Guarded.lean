import Mathlib.Algebra.Ring.Parity
import Mathlib.Data.List.DropRight
import ScopedConfig.Proofs.Text.Escape
import ScopedConfig.Text.Quote

/-!
# Quotes that backslashes guard

A backslash takes the character behind it, so what counts in front of a quote is whether the run of
backslashes there is odd or even: an odd run guards the quote, an even one leaves it to close. A
text that ends in an even run takes no character of what follows. Guarded texts behind each other
are guarded, because an even run in front of a text changes no run in it from odd to even. An
escaped text is made of such texts, one for each character, so it can be put between quotes and on
one line, and it is read back up to its last character, whatever stands behind it.

Key definitions: `Text.backslashes`, `Text.Guarded`.
Key theorems: `Text.even_backslashes_append_iff`, `Text.Guarded.append`, `Text.guarded_escape`,
`Text.escape_self_delimiting`.
-/

namespace ScopedConfig.Text

/-- The number of backslashes that a text ends in. -/
def backslashes (cs : List Char) : Nat :=
  (cs.rtakeWhile (· == '\\')).length

/-- Every quote has an odd run of backslashes in front of it, and the run at the end is even. -/
structure Guarded (cs : List Char) : Prop where
  quote : ∀ front q behind, cs = front ++ q :: behind → isQuote q = true → Odd (backslashes front)
  last : Even (backslashes cs)

/-! ### Runs of backslashes -/

theorem backslashes_concat_backslash (cs : List Char) :
    backslashes (cs ++ ['\\']) = backslashes cs + 1 := by
  rw [backslashes, List.rtakeWhile_concat_pos _ _ _ (by decide), List.length_append]
  rfl

theorem backslashes_concat_of_ne (cs : List Char) {c : Char} (hc : c ≠ '\\') :
    backslashes (cs ++ [c]) = 0 := by
  rw [backslashes, List.rtakeWhile_concat_neg _ _ _ (by simpa using hc)]
  rfl

/-- **An even run in front of a text does not change whether the run at its end is even.** The run
at the end reaches beyond the text only if all of it is backslashes. -/
theorem even_backslashes_append_iff {cs : List Char} (h : Even (backslashes cs)) (ds : List Char) :
    Even (backslashes (cs ++ ds)) ↔ Even (backslashes ds) := by
  induction ds using List.reverseRecOn with
  | nil =>
    rw [List.append_nil]
    exact iff_of_true h (by decide)
  | append_singleton ds d ih =>
    rw [← List.append_assoc]
    by_cases hd : d = '\\'
    · rw [hd, backslashes_concat_backslash, backslashes_concat_backslash, Nat.even_add_one,
        Nat.even_add_one, ih]
    · rw [backslashes_concat_of_ne _ hd, backslashes_concat_of_ne _ hd]

/-! ### Guarded texts -/

namespace Guarded

theorem nil : Guarded [] :=
  ⟨fun _ _ _ h _ => absurd h (by simp), by decide⟩

/-- **Guarded texts behind each other are guarded.** -/
theorem append {cs ds : List Char} (hc : Guarded cs) (hd : Guarded ds) : Guarded (cs ++ ds) := by
  refine ⟨fun front q behind h hq => ?_, (even_backslashes_append_iff hc.last ds).mpr hd.last⟩
  rcases List.append_eq_append_iff.mp h with ⟨inner, rfl, hds⟩ | ⟨inner, hcs, hbehind⟩
  · -- the quote stands in the second text
    have hodd : Odd (backslashes inner) := hd.quote inner q behind hds hq
    rw [← Nat.not_even_iff_odd] at hodd ⊢
    exact fun heven => hodd ((even_backslashes_append_iff hc.last inner).mp heven)
  · cases inner with
    | nil =>
      -- the quote is the first character of the second text
      rw [List.append_nil] at hcs
      have hodd : Odd (backslashes []) := hd.quote [] q behind hbehind.symm hq
      exact absurd hodd (by decide)
    | cons d inner =>
      obtain ⟨rfl, -⟩ := List.cons.inj hbehind
      exact hc.quote front q inner hcs hq

theorem taken (c : Char) : Guarded ['\\', c] := by
  refine ⟨fun front q behind h hq => ?_, ?_⟩
  · match front with
    | [] =>
      obtain ⟨rfl, -⟩ := List.cons.inj h
      exact absurd hq (by decide)
    | [d] =>
      obtain ⟨rfl, -⟩ := List.cons.inj h
      decide
    | _ :: _ :: front => exact absurd (congrArg List.length h) (by simp)
  · by_cases hc : c = '\\'
    · rw [hc]
      decide
    · have hzero : backslashes ['\\', c] = 0 := backslashes_concat_of_ne ['\\'] hc
      rw [hzero]
      decide

/-- A character that is neither a quote nor a backslash needs no guard. -/
theorem plain {c : Char} (double : c ≠ '"') (single : c ≠ '\'') (backslash : c ≠ '\\') :
    Guarded [c] := by
  refine ⟨fun front q behind h hq => ?_, ?_⟩
  · obtain rfl : c = q := by
      cases front with
      | nil => exact (List.cons.inj h).1
      | cons d front => exact absurd (List.cons.inj h).2 (by simp)
    exact absurd hq (by simp [isQuote, double, single])
  · have hzero : backslashes [c] = 0 := backslashes_concat_of_ne [] backslash
    rw [hzero]
    decide

theorem of_plain : ∀ {cs : List Char},
    (∀ c ∈ cs, c ≠ '"' ∧ c ≠ '\'' ∧ c ≠ '\\') → Guarded cs
  | [], _ => .nil
  | c :: cs, h => by
    obtain ⟨⟨double, single, backslash⟩, hcs⟩ := List.forall_mem_cons.mp h
    exact (plain double single backslash).append (of_plain hcs)

/-- **What a character is escaped to is guarded**, whichever way it is escaped. -/
theorem of_escaped {c : Char} {cs : List Char} (h : Escaped c cs) : Guarded cs := by
  cases h with
  | marked d => exact taken d
  | digits => exact (taken 'u').append (of_plain fun d => ne_of_mem_hex4)
  | plain backslash double single => exact plain double single backslash

end Guarded

theorem guarded_escape : ∀ cs : List Char, Guarded (escape cs)
  | [] => .nil
  | c :: cs => by
    rw [escape, List.flatMap_cons]
    exact (Guarded.of_escaped (escaped c)).append (guarded_escape cs)

/-- **Escaping makes a text that ends where it ends.** Whatever stands behind it, unescaping takes
up the escaped text alone and goes on behind it. The escaped text has no control character in it, so
it stays on one line; every quote in it is guarded by an odd run of backslashes, and the run at its
end is even, so what follows is not guarded by it. -/
theorem escape_self_delimiting (cs : List Char) :
    (∀ rest, unescape (escape cs ++ rest) = cs ++ unescape rest) ∧
      (∀ c ∈ escape cs, ¬IsAsciiControl c) ∧ Guarded (escape cs) :=
  ⟨fun rest => unescape_escape_append rest cs, fun _ => not_isAsciiControl_of_mem_escape,
    guarded_escape cs⟩

end ScopedConfig.Text
