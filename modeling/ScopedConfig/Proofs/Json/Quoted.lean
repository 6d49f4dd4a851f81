import Mathlib.Data.Bool.AllAny
import Mathlib.Data.List.Forall2
import ScopedConfig.Json.Quoted
import ScopedConfig.Json.Reader

/-!
# JSON strings say what was written

Between its double quotes a JSON string has one form for each character of the text: a backslash and
a mark, a backslash and digits, or the character itself. The forms are fixed, so a text has one JSON
string. A reader takes up each form whole, whatever follows, and gives its character, so the string
is read as the text. No form has a character below U+0020 in it, so the string stays on one line.

Key definitions: `Json.marks`, `Json.IsForm`, `Json.IsQuoted`.
Key theorems: `Json.isForm_iff`, `Json.isQuoted_iff`, `Json.IsQuoted.string?_append`,
`Json.le_toNat_of_mem_quotedChars`.
-/

namespace ScopedConfig.Json

/-- The characters that have a mark, each with its mark. -/
def marks : List (Char × Char) :=
  [('"', '"'), ('\\', '\\'), ('\x08', 'b'), ('\t', 't'), ('\n', 'n'), ('\x0C', 'f'), ('\r', 'r')]

/-- The digits of base sixteen. -/
def digitChars : List Char :=
  "0123456789abcdef".toList

/-- The form of a character in a JSON string. A control character without a mark is written with
digits, and only the last two of them can be other than zero. -/
inductive IsForm (c : Char) : List Char → Prop
  | marked {m : Char} (mark : (c, m) ∈ marks) : IsForm c ['\\', m]
  | digits {high low : Char} (control : c.toNat < 0x20) (unmarked : ∀ m, (c, m) ∉ marks)
      (first : digitChars[c.toNat / 16]? = some high)
      (second : digitChars[c.toNat % 16]? = some low) :
      IsForm c ['\\', 'u', '0', '0', high, low]
  | plain (visible : 0x20 ≤ c.toNat) (unmarked : ∀ m, (c, m) ∉ marks) : IsForm c [c]

/-- The text as a JSON string: the forms of its characters between double quotes. -/
def IsQuoted (text json : String) : Prop :=
  ∃ forms, List.Forall₂ IsForm text.toList forms ∧ json.toList = '"' :: forms.flatten ++ ['"']

variable {c : Char} {cs : List Char} {text json : String}

/-! ### Forms -/

theorem quotedChar_of_marked {m : Char} (mark : (c, m) ∈ marks) : quotedChar c = ['\\', m] := by
  have hall : ∀ p ∈ marks, quotedChar p.1 = ['\\', p.2] := by decide
  exact hall _ mark

theorem quotedChar_of_unmarked (unmarked : ∀ m, (c, m) ∉ marks) :
    quotedChar c = if c.toNat < 0x20 then '\\' :: 'u' :: Text.hex4 c.toNat else [c] := by
  have hne : ∀ p ∈ marks, c ≠ p.1 := fun p hp hc => unmarked p.2 (hc ▸ hp)
  simp only [marks, List.forall_mem_cons] at hne
  obtain ⟨double, backslash, backspace, tab, line, feed, carriage, -⟩ := hne
  have hbackspace : c.toNat ≠ 0x08 := fun hc => backspace (Char.toNat_inj.mp hc)
  have hfeed : c.toNat ≠ 0x0C := fun hc => feed (Char.toNat_inj.mp hc)
  rw [quotedChar, if_neg double, if_neg backslash, if_neg hbackspace, if_neg tab, if_neg line,
    if_neg hfeed, if_neg carriage]

theorem hex4_of_lt {n : Nat} (h : n < 0x20) : ∃ high low,
    digitChars[n / 16]? = some high ∧
      digitChars[n % 16]? = some low ∧ Text.hex4 n = ['0', '0', high, low] := by
  have hall : ∀ n < 0x20,
      digitChars[n / 16]? = some (Text.hexDigit (n / 16)) ∧
        digitChars[n % 16]? = some (Text.hexDigit (n % 16)) ∧
          Text.hex4 n = ['0', '0', Text.hexDigit (n / 16), Text.hexDigit (n % 16)] := by decide
  exact ⟨_, _, hall n h⟩

theorem hex4_eq {n : Nat} {high low : Char} (h : n < 0x20)
    (first : digitChars[n / 16]? = some high)
    (second : digitChars[n % 16]? = some low) :
    Text.hex4 n = ['0', '0', high, low] := by
  obtain ⟨_, _, hhigh, hlow, hdigits⟩ := hex4_of_lt h
  obtain rfl := Option.some.inj (first.symm.trans hhigh)
  obtain rfl := Option.some.inj (second.symm.trans hlow)
  exact hdigits

theorem ofHex?_hex4 {n : Nat} (h : n < 0x20) :
    Text.ofHex? (Text.hex4 n) = some n ∧ Text.ofCodePoint? n = some (Char.ofNat n) := by
  revert n
  decide

/-- **Each character has one form**, and it is the one that is written. -/
theorem isForm_iff : IsForm c cs ↔ cs = quotedChar c := by
  constructor
  · intro h
    cases h with
    | marked mark => exact (quotedChar_of_marked mark).symm
    | digits control unmarked first second =>
      rw [quotedChar_of_unmarked unmarked, if_pos control, hex4_eq control first second]
    | plain visible unmarked =>
      rw [quotedChar_of_unmarked unmarked, if_neg (Nat.not_lt.mpr visible)]
  · rintro rfl
    by_cases hmark : ∃ m, (c, m) ∈ marks
    · obtain ⟨m, mark⟩ := hmark
      rw [quotedChar_of_marked mark]
      exact .marked mark
    · have unmarked : ∀ m, (c, m) ∉ marks := not_exists.mp hmark
      rw [quotedChar_of_unmarked unmarked]
      by_cases control : c.toNat < 0x20
      · obtain ⟨high, low, hhigh, hlow, hdigits⟩ := hex4_of_lt control
        rw [if_pos control, hdigits]
        exact .digits control unmarked hhigh hlow
      · rw [if_neg control]
        exact .plain (Nat.le_of_not_lt control) unmarked

theorem forall₂_isForm_iff {forms : List (List Char)} :
    List.Forall₂ IsForm cs forms ↔ cs.map quotedChar = forms := by
  have hform : IsForm = fun c cs => quotedChar c = cs := by
    funext c cs
    exact propext (isForm_iff.trans eq_comm)
  rw [hform, ← List.forall₂_map_left_iff, List.forall₂_eq_eq_eq]

/-- **A text has one JSON string.** -/
theorem isQuoted_iff : IsQuoted text json ↔ json = quoted text := by
  have hchars : json = quoted text ↔ json.toList = quotedChars text.toList := by
    rw [quoted, ← String.toList_inj, String.toList_ofList]
  rw [hchars, quotedChars, List.flatMap_def]
  constructor
  · rintro ⟨forms, hall, hjson⟩
    rwa [forall₂_isForm_iff.mp hall]
  · exact fun hjson => ⟨_, forall₂_isForm_iff.mpr rfl, hjson⟩

/-! ### Reading -/

/-- **A form is taken up whole**, whatever follows, and gives its character. -/
theorem IsForm.stringTail?_append (h : IsForm c cs) (rest : List Char) :
    stringTail? (cs ++ rest) = withChar c (stringTail? rest) := by
  cases h with
  | @marked m mark =>
    have hall : ∀ p ∈ marks, p.2 ≠ 'u' ∧ shortEscape? p.2 = some p.1 := by decide
    obtain ⟨letter, hshort⟩ := hall _ mark
    show stringTail? ('\\' :: m :: rest) = _
    rw [stringTail?]
    · rw [hshort]
    · exact fun _ _ _ _ _ hm _ => letter hm
  | @digits high low control unmarked first second =>
    obtain ⟨hnumber, hcode⟩ := ofHex?_hex4 control
    rw [hex4_eq control first second] at hnumber
    rw [Char.ofNat_toNat] at hcode
    show stringTail? ('\\' :: 'u' :: '0' :: '0' :: high :: low :: rest) = _
    simp only [stringTail?, hnumber, hcode]
  | plain visible unmarked =>
    have double : c ≠ '"' := fun hc => unmarked '"' (by rw [hc]; decide)
    have backslash : c ≠ '\\' := fun hc => unmarked '\\' (by rw [hc]; decide)
    show stringTail? (c :: rest) = _
    rw [stringTail?]
    · exact if_neg (Nat.not_lt.mpr visible)
    · exact double
    · exact fun _ _ _ _ _ hc _ => backslash hc
    · exact fun _ _ hc _ => backslash hc

theorem stringTail?_flatten_append {forms : List (List Char)} (h : List.Forall₂ IsForm cs forms)
    (rest : List Char) : stringTail? (forms.flatten ++ '"' :: rest) = some (cs, rest) := by
  induction h with
  | nil => rfl
  | @cons c form cs forms hform _ ih =>
    rw [List.flatten_cons, List.append_assoc, hform.stringTail?_append, ih]
    rfl

/-- **A JSON string is read as its text**, whatever follows. -/
theorem IsQuoted.string?_append (h : IsQuoted text json) (rest : List Char) :
    string? (json.toList ++ rest) = some (text, rest) := by
  obtain ⟨forms, hall, hjson⟩ := h
  rw [hjson]
  simp only [List.cons_append, List.append_assoc, List.nil_append, string?, if_true,
    stringTail?_flatten_append hall, Option.map_some, String.ofList_toList]

/-! ### What a JSON string has in it -/

theorem IsForm.le_toNat (h : IsForm c cs) : ∀ d ∈ cs, 0x20 ≤ d.toNat := by
  have hback : 0x20 ≤ '\\'.toNat := by decide
  cases h with
  | marked mark =>
    have hall : ∀ p ∈ marks, 0x20 ≤ p.2.toNat := by decide
    exact List.forall_mem_cons.mpr ⟨hback, List.forall_mem_singleton.mpr (hall _ mark)⟩
  | digits control unmarked first second =>
    have hall : ∀ d ∈ digitChars, 0x20 ≤ d.toNat :=
      List.all_iff_forall_prop.mp (by decide)
    simp only [List.forall_mem_cons]
    exact ⟨hback, by decide, by decide, by decide, hall _ (List.mem_of_getElem? first),
      hall _ (List.mem_of_getElem? second), List.forall_mem_nil _⟩
  | plain visible => exact List.forall_mem_singleton.mpr visible

theorem le_toNat_of_mem_quotedChars (h : c ∈ quotedChars cs) : 0x20 ≤ c.toNat := by
  rw [quotedChars, List.cons_append, List.mem_cons, List.mem_append, List.mem_singleton] at h
  rcases h with rfl | h | rfl
  · decide
  · obtain ⟨d, -, hc⟩ := List.mem_flatMap.mp h
    exact (isForm_iff.mpr rfl).le_toNat c hc
  · decide

end ScopedConfig.Json
