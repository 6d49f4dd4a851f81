import ScopedConfig.Text.Escape

/-!
# Escaping and unescaping

A character is escaped in one of three ways: to a backslash and a character that stands for it, to
digits, or to itself. Whatever it is escaped to is taken up whole when the text is unescaped, so
unescaping a text that starts with an escaped one gives the text back and goes on behind it. None of
the three writes a control character, so an escaped text stays on one line.

Key definitions: `Text.IsAsciiControl`, `Text.Escaped`.
Key theorems: `Text.escaped`, `Text.unescape_escape_append`,
`Text.not_isAsciiControl_of_mem_escape`.
-/

namespace ScopedConfig.Text

/-- A control character of the first 128 characters. -/
def IsAsciiControl (c : Char) : Prop :=
  c.toNat < 0x20 ∨ c.toNat = 0x7F

instance (c : Char) : Decidable (IsAsciiControl c) :=
  inferInstanceAs (Decidable (_ ∨ _))

/-- The three ways to escape a character. -/
inductive Escaped (c : Char) : List Char → Prop
  | marked (d : Char) (letter : d ≠ 'u') (visible : ¬IsAsciiControl d)
      (resolve : resolveEscape d = [c]) : Escaped c ['\\', d]
  | digits (control : IsAsciiControl c) : Escaped c ('\\' :: 'u' :: hex4 c.toNat)
  | plain (backslash : c ≠ '\\') (double : c ≠ '"') (single : c ≠ '\'')
      (visible : ¬IsAsciiControl c) : Escaped c [c]

theorem escaped (c : Char) : Escaped c (escapeChar c) := by
  by_cases hmark : c = '\\' ∨ c = '"' ∨ c = '\'' ∨ c = '\n' ∨ c = '\r' ∨ c = '\t'
  · rcases hmark with rfl | rfl | rfl | rfl | rfl | rfl
    · exact .marked '\\' (by decide) (by decide) rfl
    · exact .marked '"' (by decide) (by decide) rfl
    · exact .marked '\'' (by decide) (by decide) rfl
    · exact .marked 'n' (by decide) (by decide) rfl
    · exact .marked 'r' (by decide) (by decide) rfl
    · exact .marked 't' (by decide) (by decide) rfl
  · simp only [not_or] at hmark
    obtain ⟨backslash, double, single, line, carriage, tab⟩ := hmark
    simp only [escapeChar, backslash, double, single, line, carriage, tab, if_false]
    split
    · rename_i control
      exact .digits control
    · rename_i visible
      exact .plain backslash double single visible

/-! ### Unescaping -/

theorem unicodeEscape?_hex4 {n : Nat} (h : n < 0x80) :
    unicodeEscape? (hexDigit (n / 4096 % 16)) (hexDigit (n / 256 % 16)) (hexDigit (n / 16 % 16))
      (hexDigit (n % 16)) = some (Char.ofNat n) := by
  revert n
  decide

/-- **What a character is escaped to stands for the character.** -/
theorem unescape_escapeChar_append (c : Char) (rest : List Char) :
    unescape (escapeChar c ++ rest) = c :: unescape rest := by
  have h := escaped c
  generalize escapeChar c = cs at h ⊢
  cases h with
  | marked d letter visible resolve =>
    show unescape ('\\' :: d :: rest) = _
    rw [unescape]
    · rw [resolve]
      rfl
    · exact fun _ _ _ _ _ hd _ => letter hd
    · exact letter
  | digits control =>
    have hlt : c.toNat < 0x80 := by
      unfold IsAsciiControl at control
      omega
    simp only [hex4, List.cons_append, List.nil_append, unescape, unicodeEscape?_hex4 hlt,
      Char.ofNat_toNat]
  | plain backslash => simp [unescape, backslash]

/-- **Unescaping undoes escaping**, whatever follows. -/
theorem unescape_escape_append (rest : List Char) :
    ∀ cs : List Char, unescape (escape cs ++ rest) = cs ++ unescape rest
  | [] => rfl
  | c :: cs => by
    have ih := unescape_escape_append rest cs
    rw [escape, List.flatMap_cons, List.append_assoc, unescape_escapeChar_append]
    exact congrArg (c :: ·) ih

theorem unescape_escape (cs : List Char) : unescape (escape cs) = cs := by
  have h := unescape_escape_append [] cs
  rwa [List.append_nil, unescape, List.append_nil] at h

/-! ### What an escaped text has in it -/

theorem not_isAsciiControl_hexDigit {n : Nat} (h : n < 16) : ¬IsAsciiControl (hexDigit n) := by
  revert n
  decide

theorem mem_hex4 {d : Char} {n : Nat} (h : d ∈ hex4 n) : ∃ m < 16, d = hexDigit m := by
  have hlt : ∀ m : Nat, m % 16 < 16 := fun m => Nat.mod_lt m (by decide)
  simp only [hex4, List.mem_cons, List.not_mem_nil, or_false] at h
  rcases h with h | h | h | h
  · exact ⟨_, hlt _, h⟩
  · exact ⟨_, hlt _, h⟩
  · exact ⟨_, hlt _, h⟩
  · exact ⟨_, hlt _, h⟩

theorem ne_of_mem_hex4 {d : Char} {n : Nat} (h : d ∈ hex4 n) : d ≠ '"' ∧ d ≠ '\'' ∧ d ≠ '\\' := by
  have hdigit : ∀ m < 16, hexDigit m ≠ '"' ∧ hexDigit m ≠ '\'' ∧ hexDigit m ≠ '\\' := by decide
  obtain ⟨m, hm, rfl⟩ := mem_hex4 h
  exact hdigit m hm

/-- **An escaped text has no control character in it.** -/
theorem not_isAsciiControl_of_mem_escape {d : Char} {cs : List Char} (h : d ∈ escape cs) :
    ¬IsAsciiControl d := by
  have hback : ¬IsAsciiControl '\\' := by decide
  obtain ⟨c, -, hd⟩ := List.mem_flatMap.mp h
  have hc := escaped c
  generalize escapeChar c = text at hc hd
  cases hc with
  | marked e letter visible resolve =>
    rcases List.mem_cons.mp hd with rfl | hd
    · exact hback
    · obtain rfl := List.mem_singleton.mp hd
      exact visible
  | digits control =>
    rcases List.mem_cons.mp hd with rfl | hd
    · exact hback
    · rcases List.mem_cons.mp hd with rfl | hd
      · decide
      · obtain ⟨m, hm, rfl⟩ := mem_hex4 hd
        exact not_isAsciiControl_hexDigit hm
  | plain _ _ _ visible =>
    obtain rfl := List.mem_singleton.mp hd
    exact visible

end ScopedConfig.Text
