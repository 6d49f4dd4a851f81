import ScopedConfig.Number.Reading
import ScopedConfig.Value.Display

/-!
# Integers read back

The digits of a number are one or more and write the number, so an integer in its displayed form
reads as itself when it fits into sixty-four bits.

Key theorems: `Number.ofDigits?_toDigits`, `Number.readInt?_intChars`, `Number.int64?_toInt`.
-/

namespace ScopedConfig.Number

/-- **The digits of a number write it.** -/
theorem ofDigits?_toDigits (n : Nat) : ofDigits? (Nat.toDigits 10 n) = some n := by
  have hdigits : (Nat.toDigits 10 n).all Char.isDigit = true :=
    List.all_eq_true.mpr fun _ hc => Nat.isDigit_of_mem_toDigits (by decide) (by decide) hc
  have hvalue : ofDigits (Nat.toDigits 10 n) = n :=
    Nat.ofDigitChars_toDigits (by decide) (by decide)
  rw [ofDigits?, if_pos ⟨Nat.toDigits_ne_nil, hdigits⟩, hvalue]

/-- The characters that integers are displayed with. -/
def intAlphabet : List Char :=
  ['-', '0', '1', '2', '3', '4', '5', '6', '7', '8', '9']

theorem mem_intAlphabet_of_isDigit {c : Char} (h : c.isDigit = true) : c ∈ intAlphabet := by
  simp only [Char.isDigit, Bool.and_eq_true, decide_eq_true_eq] at h
  have hcode : c.toNat ∈ List.range' 48 10 := by
    simp only [List.mem_range'_1]
    exact ⟨h.1, Nat.lt_succ_of_le h.2⟩
  rw [← Char.ofNat_toNat c]
  generalize c.toNat = n at hcode
  revert n
  decide

theorem mem_intAlphabet_of_mem_intChars {c : Char} {n : Int} (h : c ∈ intChars n) :
    c ∈ intAlphabet := by
  have hdigit : ∀ m : Nat, c ∈ Nat.toDigits 10 m → c ∈ intAlphabet := fun _ hc =>
    mem_intAlphabet_of_isDigit (Nat.isDigit_of_mem_toDigits (by decide) (by decide) hc)
  unfold intChars at h
  split at h
  · rcases List.mem_cons.mp h with rfl | h
    · decide
    · exact hdigit _ h
  · exact hdigit _ h

theorem intChars_ne_nil (n : Int) : intChars n ≠ [] := by
  unfold intChars
  split
  · exact List.cons_ne_nil _ _
  · exact Nat.toDigits_ne_nil

theorem takeSign_of_isDigit : ∀ {cs : List Char}, (∀ c ∈ cs, c.isDigit = true) →
    takeSign cs = (false, cs)
  | [], _ => rfl
  | c :: cs, h => by
    have hc := h c (List.mem_cons_self ..)
    have hminus : c ≠ '-' := by
      rintro rfl
      exact absurd hc (by decide)
    have hplus : c ≠ '+' := by
      rintro rfl
      exact absurd hc (by decide)
    rw [takeSign, if_neg hminus, if_neg hplus]

theorem takeSign_minus (cs : List Char) : takeSign ('-' :: cs) = (true, cs) :=
  rfl

/-- **A displayed integer reads as itself, if it fits.** -/
theorem readInt?_intChars (n : Int) : readInt? (intChars n) = int64? n := by
  have hread : ∀ {cs rest : List Char} {negative : Bool}, takeSign cs = (negative, rest) →
      readInt? cs = (ofDigits? rest).bind fun m => int64? (signed negative m) := fun h => by
    rw [readInt?, h]
  unfold intChars
  split
  · rename_i hneg
    have hvalue : signed true n.natAbs = n := by
      simp only [signed, if_true]
      omega
    rw [hread (takeSign_minus _), ofDigits?_toDigits, Option.bind_some, hvalue]
  · rename_i hpos
    have hvalue : signed false n.natAbs = n := by
      simp only [signed, Bool.false_eq_true, if_false]
      omega
    have hdigits : ∀ c ∈ Nat.toDigits 10 n.natAbs, c.isDigit = true := fun _ hc =>
      Nat.isDigit_of_mem_toDigits (by decide) (by decide) hc
    have hsign := takeSign_of_isDigit hdigits
    rw [hread hsign, ofDigits?_toDigits, Option.bind_some, hvalue]

theorem int64?_toInt (n : Int64) : int64? n.toInt = some n := by
  have hpow : (twoPow 63 : Int) = 2 ^ 63 := by decide
  rw [int64?, hpow, if_pos ⟨n.le_toInt, n.toInt_lt⟩, Int64.ofInt_toInt]

end ScopedConfig.Number
