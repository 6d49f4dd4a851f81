import Mathlib.Data.Bool.AllAny
import ScopedConfig.Proofs.Json.Quoted
import ScopedConfig.Proofs.Number.Reading
import ScopedConfig.Value.Json

/-!
# JSON texts stay on one line

A JSON text has no character below U+0020 in it, whatever the value is. Numbers are written with
digits, signs, a point and an exponent mark. A text is written between double quotes, with the
characters below U+0020 escaped. Hence a line that a JSON text is put on does not end inside it.

Key definitions: `Number.floatAlphabet`.
Key theorems: `Number.mem_floatAlphabet_of_mem_jsonFloat`, `Value.le_toNat_of_mem_jsonChars`.
-/

namespace ScopedConfig

/-! ### Numbers -/

namespace Number

/-- The characters that finite numbers are written with. -/
def floatAlphabet : List Char :=
  '.' :: 'e' :: '+' :: intAlphabet

theorem forall_mem_toDigits (n : Nat) : ∀ c ∈ Nat.toDigits 10 n, c ∈ floatAlphabet := by
  intro c hc
  have hdigit : c.isDigit = true := Nat.isDigit_of_mem_toDigits (by decide) (by decide) hc
  exact List.mem_append_right ['.', 'e', '+'] (mem_intAlphabet_of_isDigit hdigit)

theorem forall_mem_replicate (n : Nat) : ∀ c ∈ List.replicate n '0', c ∈ floatAlphabet := by
  intro c hc
  rw [List.eq_of_mem_replicate hc]
  decide

theorem forall_mem_positional (d : Decimal) : ∀ c ∈ positional d, c ∈ floatAlphabet := by
  have hdigits := forall_mem_toDigits d.coefficient
  unfold positional
  simp only
  split
  · refine List.forall_mem_append.mpr ⟨?_, List.all_iff_forall_prop.mp (by decide)⟩
    exact List.forall_mem_append.mpr ⟨hdigits, forall_mem_replicate _⟩
  · split
    · refine List.forall_mem_append.mpr ⟨fun c hc => hdigits c (List.mem_of_mem_take hc), ?_⟩
      exact List.forall_mem_cons.mpr ⟨by decide, fun c hc => hdigits c (List.mem_of_mem_drop hc)⟩
    · refine List.forall_mem_append.mpr ⟨?_, hdigits⟩
      refine List.forall_mem_cons.mpr ⟨by decide, ?_⟩
      exact List.forall_mem_cons.mpr ⟨by decide, forall_mem_replicate _⟩

theorem forall_mem_scientific (d : Decimal) : ∀ c ∈ scientific d, c ∈ floatAlphabet := by
  have hdigits := forall_mem_toDigits d.coefficient
  unfold scientific
  simp only
  refine List.forall_mem_append.mpr ⟨List.forall_mem_append.mpr ⟨?_, ?_⟩, ?_⟩
  · exact fun c hc => hdigits c (List.mem_of_mem_take hc)
  · split
    · exact List.forall_mem_nil _
    · exact List.forall_mem_cons.mpr ⟨by decide, fun c hc => hdigits c (List.mem_of_mem_drop hc)⟩
  · refine List.forall_mem_cons.mpr ⟨by decide, List.forall_mem_cons.mpr ⟨?_, ?_⟩⟩
    · split <;> decide
    · exact forall_mem_toDigits _

theorem forall_mem_write (form : Form) (x : Binary64) : ∀ c ∈ form.write x, c ∈ floatAlphabet := by
  unfold Form.write
  simp only
  refine List.forall_mem_append.mpr ⟨?_, ?_⟩
  · split
    · exact List.forall_mem_singleton.mpr (by decide)
    · exact List.forall_mem_nil _
  · split
    · exact List.all_iff_forall_prop.mp (by decide)
    · split
      · exact forall_mem_positional _
      · exact forall_mem_scientific _

/-- **A number is written with digits, signs, a point and an exponent mark**, or it is `null`. -/
theorem mem_floatAlphabet_of_mem_jsonFloat {c : Char} {x : Binary64} (h : c ∈ jsonFloat x) :
    c ∈ floatAlphabet ∨ c ∈ "null".toList := by
  unfold jsonFloat at h
  split at h
  · exact .inl (forall_mem_write _ x c h)
  · exact .inr h

end Number

/-! ### Values -/

namespace Value

theorem le_toNat_of_all {cs : List Char} (h : cs.all fun d => decide (0x20 ≤ d.toNat)) {c : Char}
    (hc : c ∈ cs) : 0x20 ≤ c.toNat :=
  of_decide_eq_true (List.all_eq_true.mp h c hc)

mutual

/-- **A JSON text has no character below U+0020 in it.** -/
theorem le_toNat_of_mem_jsonChars {c : Char} : ∀ {v : Value}, c ∈ v.jsonChars → 0x20 ≤ c.toNat
  | null, h => by
    rw [jsonChars] at h
    exact le_toNat_of_all (by decide) h
  | bool true, h => by
    rw [jsonChars] at h
    exact le_toNat_of_all (by decide) h
  | bool false, h => by
    rw [jsonChars] at h
    exact le_toNat_of_all (by decide) h
  | int n, h => by
    rw [jsonChars] at h
    exact le_toNat_of_all (by decide) (Number.mem_intAlphabet_of_mem_intChars h)
  | float x, h => by
    rw [jsonChars] at h
    rcases Number.mem_floatAlphabet_of_mem_jsonFloat h with h | h
    · exact le_toNat_of_all (by decide) h
    · exact le_toNat_of_all (by decide) h
  | string s, h => by
    rw [jsonChars] at h
    exact Json.le_toNat_of_mem_quotedChars h
  | list items, h => by
    rw [jsonChars, List.cons_append, List.mem_cons, List.mem_append, List.mem_singleton] at h
    rcases h with rfl | h | rfl
    · decide
    · exact le_toNat_of_mem_jsonItems h
    · decide

theorem le_toNat_of_mem_jsonItems {c : Char} : ∀ {items : List Value},
    c ∈ jsonItems items → 0x20 ≤ c.toNat
  | [], h => by
    rw [jsonItems] at h
    exact absurd h List.not_mem_nil
  | [v], h => by
    rw [jsonItems] at h
    exact le_toNat_of_mem_jsonChars h
  | v :: w :: vs, h => by
    rw [jsonItems] at h
    rcases List.mem_append.mp h with h | h
    · exact le_toNat_of_mem_jsonChars h
    · rcases List.mem_cons.mp h with rfl | h
      · decide
      · exact le_toNat_of_mem_jsonItems h

end

theorem lineFeed_not_mem_toJson (v : Value) : '\n' ∉ v.toJson.toList := by
  intro h
  rw [toJson, String.toList_ofList] at h
  exact absurd (le_toNat_of_mem_jsonChars h) (by decide)

end Value

end ScopedConfig
