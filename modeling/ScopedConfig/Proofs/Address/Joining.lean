import ScopedConfig.Address.Segment
import ScopedConfig.Proofs.Text.Mark

/-!
# Segments and the address they are joined to

An address is cut only where no quote is open, so each segment can be scanned again from its own
start, as if nothing stood in front of it: it has no dot outside quotes, and leaves no quote open
unless it is the last one. Texts of this kind with dots between them are an address with exactly
these segments. So nothing is lost when segments are remembered instead of the address they came
from, and nothing is made up.

Key definitions: `Address.Separable`.
Key theorems: `Address.separable_iff`, `Address.split_eq_iff`.
-/

namespace ScopedConfig.Address

open Text

/-- Texts that can stand between dots: there is one at least, none has a dot outside quotes, and
all but the last have their quotes closed. -/
structure Separable (ts : List String) : Prop where
  nonempty : ts ≠ []
  dots : ∀ t ∈ ts, ¬StandsOutside '.' none t.toList
  closed : ∀ t ∈ ts.dropLast, t.toList.foldl quoteAfter none = none

variable {s : String} {ts : List String}

/-- **A search passes over each of the texts**, and comes out of all quotes but in the last. -/
theorem separable_iff : Separable ts ↔ Cut '.' none (ts.map String.toList) := by
  rw [cut_iff, ← List.map_dropLast, List.forall_mem_map, List.forall_mem_map]
  simp only [pass?_eq_some_iff]
  constructor
  · rintro ⟨hne, hdots, hclosed⟩
    have hinner : ∀ t ∈ ts.dropLast, ¬StandsOutside '.' none t.toList := fun t ht =>
      hdots t (List.dropLast_subset ts ht)
    exact ⟨by simpa using hne, fun t ht => ⟨_, hdots t ht, rfl⟩,
      fun t ht => ⟨hinner t ht, hclosed t ht⟩⟩
  · rintro ⟨hne, hall, hinner⟩
    refine ⟨by simpa using hne, fun t ht => ?_, fun t ht => (hinner t ht).2⟩
    obtain ⟨-, hdot, -⟩ := hall t ht
    exact hdot

theorem split_eq_iff_splitChars : split s = ts ↔ splitChars s.toList = ts.map String.toList := by
  have hinj : Function.Injective (List.map String.toList) :=
    List.map_injective_iff.mpr fun _ _ => String.toList_inj.mp
  have hchars : (split s).map String.toList = splitChars s.toList := by
    simp [split, Function.comp_def]
  rw [← hchars, hinj.eq_iff]

/-- **Cutting an address and joining segments undo each other.** The segments of an address with
dots between them are the address, and are texts that dots can separate; and such texts are the
segments of what they are joined to. -/
theorem split_eq_iff : split s = ts ↔ Separable ts ∧ ".".intercalate ts = s := by
  have hjoined : (".".intercalate ts).toList = ['.'].intercalate (ts.map String.toList) :=
    String.toList_intercalate
  rw [split_eq_iff_splitChars, splitChars, splitOutside_eq_iff, separable_iff, ← hjoined,
    String.toList_inj]

/-- A quote hides the dots in it, and in the last segment it may stay open. -/
example : split "a..'b.c\"'.\"d.e" = ["a", "", "'b.c\"'", "\"d.e"] := by decide

end ScopedConfig.Address
