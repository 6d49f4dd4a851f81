import ScopedConfig.Proofs.Address.Absolute
import ScopedConfig.Proofs.Address.Grammar
import ScopedConfig.Proofs.Text.Blank

/-!
# Local keys as names

A text that is a local key is one key, plain or in quotes, with any blanks around it. As a name, the
same text begins with no dot, so nothing is put into it, and it is one segment as well: what it is
without its spaces outside quotes. The two readings take away different characters. Trimming takes
every kind of blank and only at the ends, the reading of a name takes spaces only and wherever no
quote is open. Both keep the quote characters, and their number tells whether quotes were taken
off. So the two keys are the same exactly if both readings leave the same text.

Key theorems: `Address.expand_eq_compact`, `Address.ofName_eq_of_localKey`,
`Address.key_eq_iff_of_localKey`, `Address.target_cases_of_localKey`.
-/

namespace ScopedConfig.Address

open Text

variable {name text key key' : String}

/-! ### Absolute names -/

theorem dropOutside_dropWhile : ∀ cs : List Char,
    dropOutside ' ' none (cs.dropWhile (· == ' ')) = dropOutside ' ' none cs
  | [] => rfl
  | c :: cs => by
    by_cases hc : c = ' '
    · rw [hc, List.dropWhile_cons_of_pos (by rfl), dropOutside_dropWhile cs, dropOutside_mark]
    · rw [List.dropWhile_cons_of_neg (by simpa using hc)]

/-- **An absolute name stands for itself without its spaces**, unless two dots meet in it. -/
theorem expand_eq_compact (h : IsAbsolute name) (remembered : List String) :
    expand name remembered =
      if Doubled '.' none (compact name) then .error (.misplacedDot name)
      else .ok (String.ofList (compact name)) := by
  rw [expand, expandFrom_of_isAbsolute h, expandRest_eq name _ (by simp), dropOutside_dropWhile,
    map_ite_error, ← compact]
  simp

/-! ### Local keys -/

theorem exists_pass?_compact (h : localKey text = .ok key) :
    ∃ q, pass? '.' none (compact text) = some q := by
  obtain ⟨q, hq⟩ := exists_pass?_of_length_eq_one (parseChars_of_localKey h).2
  rw [pass?_trim (by decide)] at hq
  exact ⟨q, pass?_dropOutside rfl hq⟩

theorem isAbsolute_of_localKey (h : localKey text = .ok key) : IsAbsolute text := by
  obtain ⟨q, hq⟩ := exists_pass?_compact h
  rw [compact, ← dropOutside_dropWhile] at hq
  cases hcs : text.toList.dropWhile (· == ' ') with
  | nil =>
    have hblank : trimStart text.toList = [] := List.dropWhile_eq_nil_iff.mpr fun c hc => by
      obtain rfl : c = ' ' := by simpa using List.dropWhile_eq_nil_iff.mp hcs c hc
      decide
    have hread := (parseChars_of_localKey h).1
    rw [trim, hblank] at hread
    exact absurd hread (by simp [trimEnd, Segment.parseChars])
  | cons c rest =>
    refine ⟨c, by rw [hcs]; rfl, ?_⟩
    rintro rfl
    rw [hcs, dropOutside_of_ne (by decide)] at hq
    exact absurd hq (by simp [pass?])

/-- **As a name, a local key is one segment**: what it is without its spaces outside quotes. -/
theorem ofName_eq_of_localKey (h : localKey text = .ok key) (remembered : List String) :
    ofName text remembered = (Segment.parseChars (compact text)).map fun segment =>
      ⟨String.ofList (compact text), [segment]⟩ := by
  obtain ⟨q, hq⟩ := exists_pass?_compact h
  have hexpand := expand_eq_compact (isAbsolute_of_localKey h) remembered
  rw [if_neg (not_doubled_of_pass? hq)] at hexpand
  simp only [ofName, hexpand, parse, String.toList_ofList, splitChars, splitOutside_of_pass? hq,
    parseSegments, map_map]

/-- **The key of the name is the local key exactly if both readings leave the same text.** -/
theorem key_eq_iff_of_localKey (h : localKey text = .ok key)
    (hname : Segment.parseChars (compact text) = .ok (.key key')) :
    key' = key ↔ compact text = trim text.toList := by
  have hlocal := (parseChars_of_localKey h).1
  constructor
  · intro hkey
    have hunquote : Text.unquote (compact text) = Text.unquote (trim text.toList) := by
      refine String.ofList_injective ?_
      rw [← Segment.eq_unquote_of_parseChars hname, ← Segment.eq_unquote_of_parseChars hlocal, hkey]
    refine eq_of_unquote_eq hunquote fun q hq => ?_
    have hkept : q ≠ ' ' ∧ isBlank q = false := by
      rcases isQuote_iff.mp hq with rfl | rfl <;> decide
    rw [compact, count_dropOutside hkept.1, count_trim hkept.2]
  · intro hsame
    rw [hsame, hlocal] at hname
    exact (Segment.key.inj (Except.ok.inj hname)).symm

/-- **What a local key is the target of as a name**: one key, or none because the name is refused.
It is the local key exactly if both readings leave the same text. -/
theorem target_cases_of_localKey (h : localKey text = .ok key) (remembered : List String) :
    (∃ e, (ofName text remembered).bind target = .error e ∧ e.kind = .malformed ∧
      compact text ≠ trim text.toList) ∨
    ∃ key', (ofName text remembered).bind target = .ok ([], key') ∧
      (key' = key ↔ compact text = trim text.toList) := by
  have hname := ofName_eq_of_localKey h remembered
  have hsame : compact text = trim text.toList →
      Segment.parseChars (compact text) = .ok (.key key) := fun hcompact => by
    rw [hcompact]
    exact (parseChars_of_localKey h).1
  cases hread : Segment.parseChars (compact text) with
  | error e =>
    rw [hread] at hname hsame
    exact .inl ⟨e, by rw [hname]; rfl, kind_of_ofName hname, fun hc => absurd (hsame hc) (by simp)⟩
  | ok segment =>
    rw [hread] at hname hsame
    cases segment with
    | key key' => exact .inr ⟨key', by rw [hname]; rfl, key_eq_iff_of_localKey h hread⟩
    | index list i =>
      exact .inl ⟨_, by rw [hname]; rfl, rfl, fun hc => absurd (hsame hc) (by simp)⟩
    | anonymous =>
      exact .inl ⟨_, by rw [hname]; rfl, rfl, fun hc => absurd (hsame hc) (by simp)⟩

end ScopedConfig.Address
