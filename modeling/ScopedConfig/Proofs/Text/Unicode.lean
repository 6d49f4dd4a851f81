import Mathlib.Data.List.Forall2
import Mathlib.Data.Nat.Digits.Defs
import ScopedConfig.Proofs.Text.Escape

/-!
# Unicode escapes

Behind `\u` stand four characters. If they are hexadecimal digits, of either case, that write the
code point of a character, then the escape stands for this character. Surrogates are code points of
no character, so their escapes are kept as they stand, and so is an escape with another character
among the four. There is one exception: a plus sign and three digits stand for the character that
the three digits write. Whatever becomes of the four characters, the text goes on behind them.

Key definitions: `Text.IsHexDigit`, `Text.Spells`.
Key theorems: `Text.hexValue?_eq_some_iff`, `Text.ofHex?_eq_some_iff`,
`Text.unicodeEscape?_eq_some_iff`, `Text.unescape_unicode`.
-/

namespace ScopedConfig.Text

variable {a b c d x : Char} {v n : Nat} {digits : List Char}

/-- The character is the hexadecimal digit of a number, in lower or in upper case. -/
def IsHexDigit (c : Char) (v : Nat) : Prop :=
  v < 16 ∧ (c = hexDigit v ∨ c = (hexDigit v).toUpper)

/-- The number that hexadecimal digits write. -/
def IsHexNumeral (digits : List Char) (n : Nat) : Prop :=
  ∃ values, List.Forall₂ IsHexDigit digits values ∧ Nat.ofDigits 16 values.reverse = n

/-- Hexadecimal digits write the code point of a character. -/
def Spells (digits : List Char) (x : Char) : Prop :=
  IsHexNumeral digits x.toNat

/-! ### Digits -/

theorem lt_of_hexValue? (h : hexValue? c = some v) : c.toNat < 0x80 ∧ v < 16 := by
  have hle : ∀ {e : Char}, c ≤ e → c.toNat ≤ e.toNat := fun hc =>
    UInt32.le_iff_toNat_le.mp (Char.le_def.mp hc)
  unfold hexValue? at h
  split at h
  · rename_i hc
    have hmax : c.toNat ≤ 57 := hle hc.2
    obtain rfl := Option.some.inj h
    omega
  · split at h
    · rename_i hc
      have hmax : c.toNat ≤ 102 := hle hc.2
      obtain rfl := Option.some.inj h
      omega
    · split at h
      · rename_i hc
        have hmax : c.toNat ≤ 70 := hle hc.2
        obtain rfl := Option.some.inj h
        omega
      · simp at h

/-- **A character is read as a digit exactly if it is one.** -/
theorem hexValue?_eq_some_iff : hexValue? c = some v ↔ IsHexDigit c v := by
  constructor
  · intro h
    obtain ⟨hc, hv⟩ := lt_of_hexValue? h
    -- the characters that may be read are few enough to look at each
    have hall : ∀ n < 0x80, ∀ w < 16, hexValue? (Char.ofNat n) = some w →
        Char.ofNat n = hexDigit w ∨ Char.ofNat n = (hexDigit w).toUpper := by
      decide
    have hdigit := hall c.toNat hc v hv
    rw [Char.ofNat_toNat] at hdigit
    exact ⟨hv, hdigit h⟩
  · rintro ⟨hv, rfl | rfl⟩
    · exact hexValue?_hexDigit hv
    · revert v
      decide

/-- Digits are read from the left, behind what was read before. -/
theorem foldlM_hexValue?_iff : ∀ {digits : List Char} {m : Nat},
    digits.foldlM (fun m c => (hexValue? c).map (16 * m + ·)) m = some n ↔
      ∃ values, List.Forall₂ IsHexDigit digits values ∧
        values.foldl (fun m v => 16 * m + v) m = n
  | [], m => by simp
  | c :: digits, m => by
    have ih := fun v => @foldlM_hexValue?_iff digits (16 * m + v)
    rw [List.foldlM_cons]
    constructor
    · intro h
      obtain ⟨_, hstep, hrest⟩ := Option.bind_eq_some_iff.mp h
      obtain ⟨v, hc, rfl⟩ := Option.map_eq_some_iff.mp hstep
      obtain ⟨values, hall, hn⟩ := (ih v).mp hrest
      exact ⟨v :: values, .cons (hexValue?_eq_some_iff.mp hc) hall, hn⟩
    · rintro ⟨values, hall, hn⟩
      cases hall with
      | @cons _ v _ values hc hall =>
        have hstep : (hexValue? c).map (16 * m + ·) = some (16 * m + v) := by
          rw [hexValue?_eq_some_iff.mpr hc, Option.map_some]
        exact Option.bind_eq_some_iff.mpr ⟨_, hstep, (ih v).mpr ⟨values, hall, hn⟩⟩

/-- **Digits are read as the number that they write.** -/
theorem ofHex?_eq_some_iff : ofHex? digits = some n ↔ IsHexNumeral digits n := by
  have hvalue : ∀ values : List Nat,
      Nat.ofDigits 16 values.reverse = values.foldl (fun m v => 16 * m + v) 0 := fun values => by
    simp only [Nat.ofDigits_eq_foldr, List.foldr_reverse, Nat.cast_id, Nat.add_comm]
  rw [ofHex?, foldlM_hexValue?_iff]
  simp only [IsHexNumeral, hvalue]

/-! ### The characters that digits write -/

theorem toNat_ofNat (h : n.isValidChar) : (Char.ofNat n).toNat = n := by
  rw [Char.ofNat, dif_pos h]
  rfl

theorem ofCodePoint?_eq_some_iff : ofCodePoint? n = some x ↔ x.toNat = n := by
  unfold ofCodePoint?
  constructor
  · intro h
    split at h
    · rename_i hvalid
      obtain rfl := Option.some.inj h
      exact toNat_ofNat hvalid
    · simp at h
  · rintro rfl
    have hvalid : x.toNat.isValidChar := x.valid
    rw [if_pos hvalid, Char.ofNat_toNat]

theorem ofHex?_bind_eq_some_iff :
    (ofHex? digits).bind ofCodePoint? = some x ↔ Spells digits x := by
  simp only [Option.bind_eq_some_iff, ofHex?_eq_some_iff, ofCodePoint?_eq_some_iff]
  constructor
  · rintro ⟨_, hn, rfl⟩
    exact hn
  · exact fun h => ⟨_, h, rfl⟩

theorem not_spells_plus : ¬Spells ('+' :: digits) x := by
  rintro ⟨_, _ | ⟨hdigit, -⟩, -⟩
  exact absurd (hexValue?_eq_some_iff.mpr hdigit) (by simp [hexValue?])

/-- **Four characters name a character** with four digits, or with a plus sign and three. -/
theorem unicodeEscape?_eq_some_iff :
    unicodeEscape? a b c d = some x ↔ Spells [a, b, c, d] x ∨ a = '+' ∧ Spells [b, c, d] x := by
  rw [unicodeEscape?, ofHex?_bind_eq_some_iff]
  by_cases ha : a = '+'
  · rw [if_pos ha]
    exact ⟨fun h => .inr ⟨ha, h⟩, fun h => (h.resolve_left (ha ▸ not_spells_plus)).2⟩
  · rw [if_neg ha]
    exact ⟨.inl, fun h => h.resolve_right fun h => ha h.1⟩

/-- Three digits always write the code point of a character: those that write none have four. -/
theorem exists_spells_iff : (∃ x, Spells [b, c, d] x) ↔ ∀ e ∈ [b, c, d], ∃ v, IsHexDigit e v := by
  constructor
  · rintro ⟨x, values, hall, -⟩
    obtain _ | ⟨hb, _ | ⟨hc, _ | ⟨hd, -⟩⟩⟩ := hall
    simpa using ⟨⟨_, hb⟩, ⟨_, hc⟩, ⟨_, hd⟩⟩
  · simp only [List.forall_mem_cons]
    rintro ⟨⟨p, hp⟩, ⟨q, hq⟩, ⟨r, hr⟩, -⟩
    have hlt : Nat.ofDigits 16 [r, q, p] < 0xD800 := by
      have := hp.1
      have := hq.1
      have := hr.1
      simp only [Nat.ofDigits_cons, Nat.ofDigits_nil]
      omega
    exact ⟨Char.ofNat (Nat.ofDigits 16 [r, q, p]), [p, q, r], .cons hp (.cons hq (.cons hr .nil)),
      (toNat_ofNat (.inl hlt)).symm⟩

/-! ### Unescaping -/

/-- **What becomes of a Unicode escape.** For all four characters behind `\u` and every text behind
them: the escape stands for a character exactly if the four are hexadecimal digits that write its
code point, or a plus sign and three digits that do. It is kept as it stands exactly if the four
are not digits of a code point, nor a plus sign and three digits. The text behind is unescaped by
itself either way. -/
theorem unescape_unicode (a b c d : Char) (cs : List Char) :
    (∀ x, unescape ('\\' :: 'u' :: a :: b :: c :: d :: cs) = x :: unescape cs ↔
      Spells [a, b, c, d] x ∨ a = '+' ∧ Spells [b, c, d] x) ∧
    (unescape ('\\' :: 'u' :: a :: b :: c :: d :: cs) =
        '\\' :: 'u' :: a :: b :: c :: d :: unescape cs ↔
      (∀ x, ¬Spells [a, b, c, d] x) ∧ ¬(a = '+' ∧ ∀ e ∈ [b, c, d], ∃ v, IsHexDigit e v)) := by
  have hlong : ∀ x, x :: unescape cs ≠ '\\' :: 'u' :: a :: b :: c :: d :: unescape cs :=
    fun x h => absurd (congrArg List.length h) (by simp)
  have hnames : ∀ x, unicodeEscape? a b c d = some x ↔
      Spells [a, b, c, d] x ∨ a = '+' ∧ Spells [b, c, d] x := fun x => unicodeEscape?_eq_some_iff
  have hnone : unicodeEscape? a b c d = none ↔
      (∀ x, ¬Spells [a, b, c, d] x) ∧ ¬(a = '+' ∧ ∃ x, Spells [b, c, d] x) := by
    rw [Option.eq_none_iff_forall_ne_some]
    simp only [ne_eq, hnames, not_or, not_and, not_exists, forall_and]
    exact and_congr_right fun _ => forall_comm
  rw [unescape, ← exists_spells_iff, ← hnone]
  simp only [← hnames]
  cases unicodeEscape? a b c d with
  | some y => simp [hlong]
  | none => simp [Ne.symm (hlong _)]

/-- A plus sign and three digits are no code point, and yet the escape is not kept. -/
theorem unescape_plus_sign :
    (∀ x, ¬Spells ['+', '0', '4', '1'] x) ∧ unescape ['\\', 'u', '+', '0', '4', '1'] = ['A'] :=
  ⟨fun _ => not_spells_plus, by decide⟩

end ScopedConfig.Text
