import Mathlib.Data.Bool.AllAny
import ScopedConfig.Proofs.Address.Faults
import ScopedConfig.Proofs.Address.Indexed

/-!
# Brackets outside quotes

A segment with a bracket outside quotes is meant to be an index and nothing else: a key part, `[`,
digits of a position below `2 ^ 64`, and `]` at the end. All others are refused for what they say,
with one exception. A segment that begins and ends with the same quote character is taken for one
quoted text without a look at what stands in it, and so it is a key even if its first quote is
closed early and brackets follow.

Key definitions: `Segment.BracketOutside`, `Segment.IsIndexed`.
Key theorems: `Segment.isIndexed_iff`, `Segment.parseChars_eq_ok_iff`,
`Segment.parse_of_bracketOutside`.
-/

namespace ScopedConfig.Segment

open Text

variable {cs list digits : List Char} {segment : Segment}

/-- A bracket stands in the text outside quotes. -/
def BracketOutside (cs : List Char) : Prop :=
  ∃ front c behind, cs = front ++ c :: behind ∧ isBracket c = true ∧
    front.foldl quoteAfter none = none

/-- The text is a key part and an index behind it, and nothing else. -/
structure IsIndexed (cs list digits : List Char) : Prop where
  text : cs = list ++ ('[' :: digits ++ [']'])
  key : KeyPart list
  nonempty : digits ≠ []
  ascii : ∀ d ∈ digits, d.isDigit = true
  small : Number.ofDigits digits < Number.twoPow 64

/-- The scopes that a key part and the digits of an index name. -/
def ofParts (list digits : List Char) : Segment :=
  .index (if list = [] then none else some (String.ofList (unquote list))) (Number.ofDigits digits)

/-! ### Indices -/

/-- **Indexed texts are those with a key part and a position.** -/
theorem isIndexed_iff : IsIndexed cs list digits ↔
    indexParts? cs = some (list, digits) ∧ position? digits = some (Number.ofDigits digits) := by
  rw [indexParts?_eq_some_iff, position?_eq_some_iff]
  constructor
  · intro h
    have hfree : digits.any isBracket = false := List.any_eq_false.mpr fun d hd => by
      simp [not_isBracket_of_isDigit (h.ascii d hd)]
    exact ⟨⟨h.key, hfree, h.text⟩, h.nonempty, h.ascii, h.small, rfl⟩
  · rintro ⟨⟨hkey, -, htext⟩, hne, hascii, hsmall, -⟩
    exact ⟨htext, hkey, hne, hascii, hsmall⟩

theorem IsIndexed.quoted?_eq_none (h : IsIndexed cs list digits) : quoted? cs = none := by
  rw [h.text, ← List.append_assoc]
  exact quoted?_of_getLast? List.getLast?_concat (by decide)

/-! ### Texts with brackets -/

/-- **What a text with brackets is read as**: an index, or else a key if the text begins and ends
with the same quote character. -/
theorem parseChars_eq_ok_iff (h : cs.any isBracket = true) : parseChars cs = .ok segment ↔
    (∃ list digits, IsIndexed cs list digits ∧ segment = ofParts list digits) ∨
      ∃ inner, quoted? cs = some inner ∧ segment = .key (String.ofList inner) := by
  have hne : cs ≠ [] := by
    rintro rfl
    simp at h
  rw [parseChars, if_neg hne]
  cases hquoted : quoted? cs with
  | some inner =>
    rw [if_pos (.inl rfl), unquote, hquoted, Option.getD_some, Except.ok.injEq]
    constructor
    · rintro rfl
      exact .inr ⟨inner, rfl, rfl⟩
    · rintro (⟨list, digits, hindexed, -⟩ | ⟨_, hinner, rfl⟩)
      · rw [hindexed.quoted?_eq_none] at hquoted
        exact absurd hquoted (by simp)
      · rw [Option.some.inj hinner]
  | none =>
    have hnot : ¬((none : Option (List Char)).isSome ∨ cs.any isBracket = false) := by simp [h]
    rw [if_neg hnot]
    constructor
    · intro hread
      split at hread
      · simp at hread
      · rename_i list digits hparts
        split at hread
        · simp at hread
        · rename_i i hposition
          obtain ⟨-, -, -, rfl⟩ := position?_eq_some_iff.mp hposition
          obtain rfl := Except.ok.inj hread
          exact .inl ⟨list, digits, isIndexed_iff.mpr ⟨hparts, hposition⟩, rfl⟩
    · rintro (⟨list, digits, hindexed, rfl⟩ | ⟨_, hinner, -⟩)
      · obtain ⟨hparts, hposition⟩ := isIndexed_iff.mp hindexed
        simp only [hparts, hposition, ofParts]
      · exact absurd hinner (by simp)

theorem BracketOutside.any_isBracket (h : BracketOutside cs) : cs.any isBracket = true := by
  obtain ⟨front, c, behind, rfl, hc, -⟩ := h
  exact List.any_eq_true.mpr ⟨c, by simp, hc⟩

/-- **Brackets outside quotes form an index, or stand between two quoted texts.** A text with a
bracket outside quotes is accepted exactly if it is a key part with an index behind it, and then it
names this key and this position, or if it begins and ends with the same quote character, and then
it is the key between the two. Every other one is refused for what it says. -/
theorem parse_of_bracketOutside {text : String} (h : BracketOutside text.toList) :
    (∀ segment, parse text = .ok segment ↔
      (∃ list digits, IsIndexed text.toList list digits ∧ segment = ofParts list digits) ∨
        ∃ q inner, isQuote q = true ∧ text.toList = q :: inner ++ [q] ∧
          segment = .key (String.ofList inner)) ∧
    ∀ e, parse text = .error e → e.kind = .malformed := by
  constructor
  · intro segment
    rw [parse, parseChars_eq_ok_iff h.any_isBracket]
    simp only [quoted?_eq_some_iff]
    refine or_congr_right ⟨?_, ?_⟩
    · rintro ⟨inner, ⟨q, hq, htext⟩, hkey⟩
      exact ⟨q, inner, hq, htext, hkey⟩
    · rintro ⟨q, inner, hq, htext, hkey⟩
      exact ⟨inner, ⟨q, hq, htext⟩, hkey⟩
  · intro e he
    rcases code_of_parseChars he with hc | hc <;> rw [Fault.kind, hc] <;> rfl

/-- A key in quotes with a dot in it, and a position with zeros in front. -/
theorem parse_of_bracketOutside_quoted : BracketOutside "'a.b'[007]".toList ∧
    parse "'a.b'[007]" = .ok (.index (some "a.b") 7) := by
  have hbracket : BracketOutside "'a.b'[007]".toList :=
    ⟨['\'', 'a', '.', 'b', '\''], '[', ['0', '0', '7', ']'], rfl, rfl, rfl⟩
  have hindexed : IsIndexed "'a.b'[007]".toList "'a.b'".toList "007".toList :=
    ⟨rfl, .quoted (q := '\'') rfl (by decide : '\'' ∉ ['a', '.', 'b']), by decide,
      List.all_iff_forall_prop.mp (by decide), by decide⟩
  exact ⟨hbracket, ((parse_of_bracketOutside hbracket).1 _).mpr (.inl ⟨_, _, hindexed, rfl⟩)⟩

/-- Brackets between two quoted texts are outside quotes, and the segment is a key with all of
them. -/
theorem parse_between_quoted : BracketOutside "'a'[0]'b'".toList ∧
    parse "'a'[0]'b'" = .ok (.key "a'[0]'b") :=
  ⟨⟨['\'', 'a', '\''], '[', ['0', ']', '\'', 'b', '\''], rfl, rfl, rfl⟩, rfl⟩

end ScopedConfig.Segment
