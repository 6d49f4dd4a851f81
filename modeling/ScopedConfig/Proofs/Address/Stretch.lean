import ScopedConfig.Arena.Describe
import ScopedConfig.Proofs.Address.Indexed
import ScopedConfig.Proofs.Address.Pieces
import ScopedConfig.Proofs.Number.Reading

/-!
# Stretches of an address

A stretch is what stands in an address between two dots: a key and the indices behind it, and only
the first stretch may lack its key. A key is shown in quotes where it needs them, and is read as
this key again if it is not empty and free of one kind of quotes. With one index a stretch is an
indexed segment. With two it is no segment at all, since an indexed segment is at most one key and
one index.

Key definitions: `Segment.Quotable`, `Stretch`, `Stretch.Shown`, `Stretch.IsSegment`.
Key theorems: `Segment.Quotable.parseChars_keyText`, `Stretch.Shown.exists_segment`,
`Stretch.Shown.parseChars_ne_ok`.
-/

namespace ScopedConfig

open Text

/-! ### Keys and indices -/

/-- A key that an address can show: it is not empty and free of one kind of quotes. -/
structure Segment.Quotable (key : String) : Prop where
  nonempty : key ≠ ""
  quote : '\'' ∉ key.toList ∨ '"' ∉ key.toList

instance (key : String) : Decidable (Segment.Quotable key) :=
  decidable_of_iff (key ≠ "" ∧ ('\'' ∉ key.toList ∨ '"' ∉ key.toList))
    ⟨fun ⟨nonempty, quote⟩ => ⟨nonempty, quote⟩, fun h => ⟨h.nonempty, h.quote⟩⟩

theorem needsQuotes_eq_false_iff {c : Char} : needsQuotes c = false ↔
    c ≠ '.' ∧ c ≠ ' ' ∧ isQuote c = false ∧ Segment.isBracket c = false := by
  simp only [needsQuotes, isQuote, Segment.isBracket, Bool.or_eq_false_iff, beq_eq_false_iff_ne]
  tauto

namespace Segment.Quotable

variable {key : String}

theorem toList_ne_nil (h : Quotable key) : key.toList ≠ [] :=
  fun hnil => h.nonempty (String.toList_eq_nil_iff.mp hnil)

theorem keyText_cases (h : Quotable key) :
    (∃ q, isQuote q = true ∧ q ∉ key.toList ∧ keyText key.toList = q :: key.toList ++ [q]) ∨
      ((∀ c ∈ key.toList, needsQuotes c = false) ∧ keyText key.toList = key.toList) := by
  unfold keyText
  by_cases hany : key.toList.any needsQuotes = true
  · rw [if_pos hany]
    by_cases hsingle : key.toList.contains '\'' = true
    · rw [if_pos hsingle]
      have hmem : '\'' ∈ key.toList := List.contains_iff_mem.mp hsingle
      have hdouble : '"' ∉ key.toList := h.quote.resolve_left fun hn => hn hmem
      exact .inl ⟨'"', rfl, hdouble, rfl⟩
    · rw [if_neg hsingle]
      have hmem : '\'' ∉ key.toList := fun hm => hsingle (List.contains_iff_mem.mpr hm)
      exact .inl ⟨'\'', rfl, hmem, rfl⟩
  · rw [if_neg hany]
    refine .inr ⟨fun c hc => ?_, rfl⟩
    have hnone := List.any_eq_false.mp (Bool.not_eq_true _ ▸ hany)
    simpa using hnone c hc

theorem keyText_ne_nil (h : Quotable key) : keyText key.toList ≠ [] := by
  rcases h.keyText_cases with ⟨q, -, -, htext⟩ | ⟨-, htext⟩
  · rw [htext]
    exact List.cons_ne_nil _ _
  · rw [htext]
    exact h.toList_ne_nil

theorem keyPart_keyText (h : Quotable key) : KeyPart (keyText key.toList) := by
  rcases h.keyText_cases with ⟨q, hq, hfree, htext⟩ | ⟨hplain, htext⟩
  · rw [htext]
    exact .quoted hq hfree
  · rw [htext]
    exact .plain fun c hc => (needsQuotes_eq_false_iff.mp (hplain c hc)).2.2

theorem unquote_keyText (h : Quotable key) : unquote (keyText key.toList) = key.toList := by
  rcases h.keyText_cases with ⟨q, hq, -, htext⟩ | ⟨hplain, htext⟩
  · rw [htext, unquote, quoted?_enclosed hq, Option.getD_some]
  · obtain ⟨c, cs, hcs⟩ := List.exists_cons_of_ne_nil h.toList_ne_nil
    have hc := hplain c (hcs ▸ List.mem_cons_self ..)
    have hhead : key.toList.head? = some c := by rw [hcs]; rfl
    rw [htext, unquote, quoted?_of_head hhead (needsQuotes_eq_false_iff.mp hc).2.2.1,
      Option.getD_none]

theorem parseChars_keyText (h : Quotable key) :
    parseChars (keyText key.toList) = .ok (.key key) := by
  have hkey : (quoted? (keyText key.toList)).isSome ∨
      (keyText key.toList).any isBracket = false := by
    rcases h.keyText_cases with ⟨q, hq, -, htext⟩ | ⟨hplain, htext⟩
    · rw [htext, quoted?_enclosed hq]
      exact .inl rfl
    · rw [htext]
      refine .inr (List.any_eq_false.mpr fun c hc => ?_)
      rw [(needsQuotes_eq_false_iff.mp (hplain c hc)).2.2.2]
      exact Bool.false_ne_true
  rw [parseChars, if_neg h.keyText_ne_nil, if_pos hkey, h.unquote_keyText, String.ofList_toList]

theorem pass?_keyText (h : Quotable key) {mark : Char} (hmark : mark = '.' ∨ mark = ' ') :
    pass? mark none (keyText key.toList) = some none := by
  have hquote : isQuote mark = false := by rcases hmark with rfl | rfl <;> rfl
  rcases h.keyText_cases with ⟨q, hq, hfree, htext⟩ | ⟨hplain, htext⟩
  · have hne : q ≠ mark := by
      rintro rfl
      rw [hq] at hquote
      exact absurd hquote (by decide)
    rw [htext]
    exact pass?_enclosed hq hne hfree
  · rw [htext]
    refine pass?_of_plain fun c hc => ?_
    obtain ⟨hdot, hspace, hcquote, -⟩ := needsQuotes_eq_false_iff.mp (hplain c hc)
    rcases hmark with rfl | rfl
    · exact ⟨hcquote, hdot⟩
    · exact ⟨hcquote, hspace⟩

end Segment.Quotable

/-- An index as an address shows it. -/
def indexText (i : Nat) : List Char :=
  '[' :: Nat.toDigits 10 i ++ [']']

theorem isDigit_of_mem_toDigits {c : Char} {i : Nat} (h : c ∈ Nat.toDigits 10 i) :
    c.isDigit = true :=
  Nat.isDigit_of_mem_toDigits (by decide) (by decide) h

theorem mem_indexText {c : Char} {i : Nat} (h : c ∈ indexText i) :
    c = '[' ∨ c = ']' ∨ c.isDigit = true := by
  rw [indexText, List.cons_append, List.mem_cons, List.mem_append, List.mem_singleton] at h
  rcases h with h | h | h
  · exact .inl h
  · exact .inr (.inr (isDigit_of_mem_toDigits h))
  · exact .inr (.inl h)

theorem pass?_indexText {positions : List Nat} {mark : Char} (hmark : mark = '.' ∨ mark = ' ') :
    pass? mark none (positions.flatMap indexText) = some none := by
  refine pass?_of_plain fun c hc => ?_
  obtain ⟨i, -, hi⟩ := List.mem_flatMap.mp hc
  have hdigit : mark.isDigit = false := by rcases hmark with rfl | rfl <;> rfl
  rcases mem_indexText hi with rfl | rfl | hc
  · rcases hmark with rfl | rfl <;> exact ⟨rfl, by decide⟩
  · rcases hmark with rfl | rfl <;> exact ⟨rfl, by decide⟩
  · refine ⟨Segment.not_isQuote_of_isDigit hc, ?_⟩
    rintro rfl
    rw [hdigit] at hc
    exact absurd hc (by decide)

theorem exists_flatMap_indexText {positions : List Nat} (hne : positions ≠ []) :
    ∃ front, positions.flatMap indexText = front ++ [']'] := by
  obtain ⟨init, last, rfl⟩ := (List.eq_nil_or_concat positions).resolve_left hne
  refine ⟨init.flatMap indexText ++ '[' :: Nat.toDigits 10 last, ?_⟩
  simp [indexText]

/-! ### Stretches of an address -/

/-- The steps between two dots of an address: a key, unless the address begins with an index, and
the indices behind it. -/
structure Stretch where
  key? : Option String
  positions : List Nat

namespace Stretch

/-- The key of a stretch as it is shown. -/
def keyPart (s : Stretch) : List Char :=
  (s.key?.map fun key => keyText key.toList).getD []

/-- A stretch as it is shown. -/
def text (s : Stretch) : List Char :=
  s.keyPart ++ s.positions.flatMap indexText

/-- The steps of a stretch. -/
def steps (s : Stretch) : List Step :=
  s.key?.toList.map .key ++ s.positions.map .index

/-- The stretch can be shown. -/
structure Shown (s : Stretch) : Prop where
  quotable : ∀ key, s.key? = some key → Segment.Quotable key
  nonempty : s.key? = none → s.positions ≠ []

/-- The stretch is one segment: there is at most one index, and it is small enough for one. -/
structure IsSegment (s : Stretch) : Prop where
  single : s.positions.length ≤ 1
  small : ∀ i ∈ s.positions, i < Number.twoPow 64

variable {s : Stretch}

theorem Shown.isKeyPart (h : s.Shown) : Segment.KeyPart s.keyPart := by
  unfold Stretch.keyPart
  cases hk : s.key? with
  | none => exact .plain (List.forall_mem_nil _)
  | some key => exact (h.quotable key hk).keyPart_keyText

theorem Shown.text_ne_nil (h : s.Shown) : s.text ≠ [] := by
  unfold text Stretch.keyPart
  cases hk : s.key? with
  | none =>
    obtain ⟨i, rest, hi⟩ := List.exists_cons_of_ne_nil (h.nonempty hk)
    rw [hi]
    simp [indexText]
  | some key => exact List.append_ne_nil_of_left_ne_nil (h.quotable key hk).keyText_ne_nil _

theorem Shown.pass?_text (h : s.Shown) {mark : Char} (hmark : mark = '.' ∨ mark = ' ') :
    pass? mark none s.text = some none := by
  have hkey : pass? mark none s.keyPart = some none := by
    unfold Stretch.keyPart
    cases hk : s.key? with
    | none => rfl
    | some key => exact (h.quotable key hk).pass?_keyText hmark
  exact pass?_append hkey (pass?_indexText hmark)

theorem Shown.isPiece (h : s.Shown) : Address.IsPiece s.text :=
  ⟨h.text_ne_nil, h.pass?_text (.inl rfl), h.pass?_text (.inr rfl)⟩

theorem position?_toDigits (i : Nat) : Segment.position? (Nat.toDigits 10 i) =
    if i < Number.twoPow 64 then some i else none := by
  rw [Segment.position?, Number.ofDigits?_toDigits, Option.filter_some]
  by_cases hi : i < Number.twoPow 64
  · simp [hi]
  · simp [hi]

theorem any_isBracket_toDigits (i : Nat) :
    (Nat.toDigits 10 i).any Segment.isBracket = false := by
  refine List.any_eq_false.mpr fun c hc => ?_
  rw [Segment.not_isBracket_of_isDigit (isDigit_of_mem_toDigits hc)]
  exact Bool.false_ne_true

theorem Shown.parseChars_single {key? : Option String} {i : Nat} (h : Shown ⟨key?, [i]⟩)
    (hi : i < Number.twoPow 64) :
    Segment.parseChars (text ⟨key?, [i]⟩) = .ok (.index key? i) := by
  have htext : text ⟨key?, [i]⟩ =
      Stretch.keyPart ⟨key?, [i]⟩ ++ ('[' :: Nat.toDigits 10 i ++ [']']) := by
    simp [text, indexText]
  have hkey : (if Stretch.keyPart ⟨key?, [i]⟩ = [] then none
      else some (String.ofList (unquote (Stretch.keyPart ⟨key?, [i]⟩)))) = key? := by
    cases key? with
    | none => rfl
    | some key =>
      have hquotable := h.quotable key rfl
      have hne : Stretch.keyPart ⟨some key, [i]⟩ ≠ [] := hquotable.keyText_ne_nil
      have hunquote : unquote (Stretch.keyPart ⟨some key, [i]⟩) = key.toList :=
        hquotable.unquote_keyText
      rw [if_neg hne, hunquote, String.ofList_toList]
  rw [htext, Segment.parseChars_indexed h.isKeyPart, any_isBracket_toDigits,
    if_neg Bool.false_ne_true, position?_toDigits, if_pos hi]
  simp only [hkey]

/-- **A stretch of one segment is read as its steps.** -/
theorem Shown.exists_segment (h : s.Shown) (hs : s.IsSegment) :
    ∃ segment, Segment.parseChars s.text = .ok segment ∧ segment ≠ .anonymous ∧
      segment.steps = s.steps := by
  obtain ⟨key?, positions⟩ := s
  match positions, hs with
  | [], _ =>
    cases key? with
    | none => exact absurd rfl (h.nonempty rfl)
    | some key =>
      have htext : text ⟨some key, []⟩ = keyText key.toList := List.append_nil _
      exact ⟨.key key, by rw [htext, (h.quotable key rfl).parseChars_keyText], by simp, rfl⟩
  | [i], hs =>
    have hi : i < Number.twoPow 64 := hs.small i (List.mem_singleton_self i)
    refine ⟨.index key? i, h.parseChars_single hi, by simp, ?_⟩
    cases key? <;> rfl
  | _ :: _ :: _, hs => exact absurd hs.single (by simp)

/-- **A stretch of more than one index is no segment**, nor is one with an index that is too
great. -/
theorem Shown.parseChars_ne_ok (h : s.Shown) (hs : ¬s.IsSegment) (segment : Segment) :
    Segment.parseChars s.text ≠ .ok segment := by
  obtain ⟨key?, positions⟩ := s
  match positions with
  | [] => exact absurd ⟨Nat.zero_le 1, List.forall_mem_nil _⟩ hs
  | [i] =>
    have hi : ¬i < Number.twoPow 64 := fun hi =>
      hs ⟨Nat.le_refl 1, List.forall_mem_singleton.mpr hi⟩
    have htext : text ⟨key?, [i]⟩ =
        Stretch.keyPart ⟨key?, [i]⟩ ++ ('[' :: Nat.toDigits 10 i ++ [']']) := by
      simp [text, indexText]
    rw [htext, Segment.parseChars_indexed h.isKeyPart, any_isBracket_toDigits,
      if_neg Bool.false_ne_true, position?_toDigits, if_neg hi]
    simp
  | i :: j :: rest =>
    -- the bracket that closes the first index stands between the outer ones
    obtain ⟨inner, hinner, hbracket⟩ : ∃ inner,
        (i :: j :: rest).flatMap indexText = '[' :: inner ++ [']'] ∧
          inner.any Segment.isBracket = true := by
      obtain ⟨front, hfront⟩ := exists_flatMap_indexText (List.cons_ne_nil j rest)
      refine ⟨Nat.toDigits 10 i ++ ']' :: front, ?_, ?_⟩
      · rw [List.flatMap_cons, hfront]
        simp [indexText]
      · simp [show Segment.isBracket ']' = true from rfl]
    have htext : text ⟨key?, i :: j :: rest⟩ =
        Stretch.keyPart ⟨key?, i :: j :: rest⟩ ++ ('[' :: inner ++ [']']) := by
      rw [text, hinner]
    rw [htext, Segment.parseChars_indexed h.isKeyPart, if_pos hbracket]
    simp

end Stretch

end ScopedConfig
