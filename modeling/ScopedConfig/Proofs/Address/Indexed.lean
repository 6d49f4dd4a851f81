import Mathlib.Data.List.TakeWhile
import ScopedConfig.Address.Segment
import ScopedConfig.Proofs.Text.Quote

/-!
# Indexed segments

An indexed segment is a key part, `[`, an index without brackets and `]`, and nothing else. The key
part is one quoted text, or free of quotes and brackets; it is empty when the scope itself is
indexed. The two kinds of key parts end where the bracket opens, so a segment has at most one such
reading.

Key definitions: `Segment.KeyPart`.
Key theorems: `Segment.indexParts?_append`, `Segment.indexParts?_eq_some_iff`,
`Segment.parseChars_indexed`, `Segment.position?_eq_some_iff`.
-/

namespace ScopedConfig.Segment

open Text

/-- The part in front of an index. -/
inductive KeyPart : List Char → Prop
  | quoted {q : Char} {inner : List Char} (quote : isQuote q = true) (free : q ∉ inner) :
      KeyPart (q :: inner ++ [q])
  | plain {cs : List Char} (chars : ∀ c ∈ cs, isQuote c = false ∧ isBracket c = false) :
      KeyPart cs

/-- **An index stands between brackets and has none in it.** -/
theorem bracketed?_eq_some_iff {cs index : List Char} : bracketed? cs = some index ↔
    cs = '[' :: index ++ [']'] ∧ index.any isBracket = false := by
  rw [bracketed?, Option.filter_eq_some_iff]
  constructor
  · rintro ⟨h, hfree⟩
    exact ⟨eq_of_enclosed? h, by simpa using hfree⟩
  · rintro ⟨rfl, hfree⟩
    exact ⟨enclosed?_cons_concat .., by simp [hfree]⟩

theorem takeWhile_append_cons {p : Char → Bool} {cs : List Char} {d : Char}
    (hcs : ∀ c ∈ cs, p c = true) (hd : p d = false) (rest : List Char) :
    (cs ++ d :: rest).takeWhile p = cs := by
  have hneg : ¬p d = true := by simp [hd]
  rw [List.takeWhile_append_of_pos hcs, List.takeWhile_cons_of_neg hneg, List.append_nil]

theorem dropWhile_append_cons {p : Char → Bool} {cs : List Char} {d : Char}
    (hcs : ∀ c ∈ cs, p c = true) (hd : p d = false) (rest : List Char) :
    (cs ++ d :: rest).dropWhile p = d :: rest := by
  have hneg : ¬p d = true := by simp [hd]
  rw [List.dropWhile_append_of_pos hcs, List.dropWhile_cons_of_neg hneg]

/-- **A segment is cut where the first bracket opens behind its key part.** -/
theorem indexParts?_append {list : List Char} (h : KeyPart list) (behind : List Char) :
    indexParts? (list ++ '[' :: behind) = (bracketed? ('[' :: behind)).map (list, ·) := by
  cases h with
  | @quoted q inner quote free =>
    have hinner : ∀ c ∈ inner, (c != q) = true := fun c hc => by
      simpa using fun he : c = q => free (he ▸ hc)
    have hquote : (q != q) = false := by simp
    have htext : q :: inner ++ [q] ++ '[' :: behind = q :: (inner ++ q :: '[' :: behind) := by simp
    rw [htext, indexParts?, if_pos quote, dropWhile_append_cons hinner hquote,
      takeWhile_append_cons hinner hquote]
  | plain chars =>
    have hplain : ∀ c ∈ list, (!(isQuote c || isBracket c)) = true := fun c hc => by
      simp [(chars c hc).1, (chars c hc).2]
    have hopen : (!(isQuote '[' || isBracket '[')) = false := by decide
    have hdrop := dropWhile_append_cons hplain hopen behind
    have htake := takeWhile_append_cons hplain hopen behind
    cases list with
    | nil =>
      rw [List.nil_append] at hdrop htake ⊢
      rw [indexParts?, if_neg (by decide)]
      simp only [hdrop, htake]
    | cons c cs =>
      have hc : ¬isQuote c = true := by simp [(chars c (List.mem_cons_self ..)).1]
      rw [List.cons_append] at hdrop htake ⊢
      rw [indexParts?, if_neg hc]
      simp only [hdrop, htake]

/-- **What an indexed segment consists of.** -/
theorem indexParts?_eq_some_iff {cs list index : List Char} :
    indexParts? cs = some (list, index) ↔
      KeyPart list ∧ index.any isBracket = false ∧ cs = list ++ ('[' :: index ++ [']']) := by
  constructor
  · intro h
    unfold indexParts? at h
    split at h
    · simp at h
    · rename_i c rest
      split at h
      · rename_i quote
        split at h
        · simp at h
        · rename_i d behind hdrop
          obtain ⟨_, hindex, hparts⟩ := Option.map_eq_some_iff.mp h
          obtain ⟨rfl, rfl⟩ := Prod.mk.inj hparts
          obtain ⟨rfl, hfree⟩ := bracketed?_eq_some_iff.mp hindex
          have hd : d = c := by
            have hhead := List.head?_dropWhile_not (· != c) rest
            rw [hdrop] at hhead
            simpa using hhead
          have hrest := List.takeWhile_append_dropWhile (p := (· != c)) (l := rest)
          have hclosed : c ∉ rest.takeWhile (· != c) := fun hm => by
            simpa using List.mem_takeWhile_imp hm
          refine ⟨.quoted quote hclosed, hfree, ?_⟩
          rw [hdrop, hd] at hrest
          conv => lhs; rw [← hrest]
          simp
      · rename_i quote
        obtain ⟨_, hindex, hparts⟩ := Option.map_eq_some_iff.mp h
        obtain ⟨rfl, rfl⟩ := Prod.mk.inj hparts
        obtain ⟨hbehind, hfree⟩ := bracketed?_eq_some_iff.mp hindex
        refine ⟨.plain fun d hd => ?_, hfree, ?_⟩
        · simpa using List.mem_takeWhile_imp hd
        · rw [← hbehind, List.takeWhile_append_dropWhile]
  · rintro ⟨hlist, hfree, rfl⟩
    rw [List.cons_append, indexParts?_append hlist, ← List.cons_append,
      bracketed?_eq_some_iff.mpr ⟨rfl, hfree⟩]
    rfl

/-- **A key part with brackets behind it is an index or nothing.** -/
theorem parseChars_indexed {list inner : List Char} (h : KeyPart list) :
    parseChars (list ++ ('[' :: inner ++ [']'])) =
      if inner.any isBracket then
        .error (.indexSyntax (String.ofList (list ++ ('[' :: inner ++ [']']))))
      else
        match position? inner with
        | none => .error
          (.indexInvalid (String.ofList inner) (String.ofList (list ++ ('[' :: inner ++ [']']))))
        | some i =>
          .ok (.index (if list = [] then none else some (String.ofList (unquote list))) i) := by
  have hne : list ++ ('[' :: inner ++ [']']) ≠ [] := by simp
  have hquoted : quoted? (list ++ ('[' :: inner ++ [']'])) = none := by
    rw [← List.append_assoc]
    exact quoted?_of_getLast? List.getLast?_concat (by decide)
  have hbracket : (list ++ ('[' :: inner ++ [']'])).any isBracket = true := by
    simp [show isBracket '[' = true from rfl]
  have hnot : ¬((quoted? (list ++ ('[' :: inner ++ [']']))).isSome ∨
      (list ++ ('[' :: inner ++ [']'])).any isBracket = false) := by
    rw [hquoted, hbracket]
    simp
  have hparts : indexParts? (list ++ ('[' :: inner ++ [']'])) =
      if inner.any isBracket then none else some (list, inner) := by
    rw [List.cons_append, indexParts?_append h, ← List.cons_append, bracketed?,
      enclosed?_cons_concat, Option.filter_some]
    cases inner.any isBracket <;> rfl
  rw [parseChars, if_neg hne, if_neg hnot, hparts]
  cases inner.any isBracket <;> rfl

/-! ### Positions -/

/-- **An index names a position by its digits**, if the number is small enough. -/
theorem position?_eq_some_iff {digits : List Char} {i : Nat} : position? digits = some i ↔
    digits ≠ [] ∧ (∀ d ∈ digits, d.isDigit = true) ∧
      Number.ofDigits digits < Number.twoPow 64 ∧ Number.ofDigits digits = i := by
  simp only [position?, Option.filter_eq_some_iff, Number.ofDigits?, decide_eq_true_eq,
    Option.ite_none_right_eq_some, List.all_eq_true, Option.some.injEq]
  constructor
  · rintro ⟨⟨⟨hne, hall⟩, rfl⟩, hlt⟩
    exact ⟨hne, hall, hlt, rfl⟩
  · rintro ⟨hne, hall, hlt, rfl⟩
    exact ⟨⟨⟨hne, hall⟩, rfl⟩, hlt⟩

theorem not_isQuote_of_isDigit {c : Char} (h : c.isDigit = true) : isQuote c = false := by
  rw [← Bool.not_eq_true, isQuote_iff]
  rintro (rfl | rfl)
  · exact absurd h (by decide)
  · exact absurd h (by decide)

theorem not_isBracket_of_isDigit {c : Char} (h : c.isDigit = true) :
    isBracket c = false := by
  have hopen : c ≠ '[' := by
    rintro rfl
    exact absurd h (by decide)
  have hclose : c ≠ ']' := by
    rintro rfl
    exact absurd h (by decide)
  simp [isBracket, hopen, hclose]

/-! ### Segments that leave a quote open -/

/-- **A segment with a quote left open has no brackets unless it begins with a quote.** With
brackets it would be a key part and an index, and neither leaves a quote open. -/
theorem any_isBracket_of_open {cs : List Char} {segment : Segment} {q : Char}
    (hread : parseChars cs = .ok segment) (hopen : pass? '.' none cs = some (some q))
    (hhead : ∀ c, cs.head? = some c → isQuote c = false) : cs.any isBracket = false := by
  by_contra hbracket
  have hne : cs ≠ [] := by
    rintro rfl
    simp at hbracket
  have hquoted : quoted? cs = none := by
    obtain ⟨c, rest, rfl⟩ := List.exists_cons_of_ne_nil hne
    exact quoted?_of_head rfl (hhead c rfl)
  have hnot : ¬((quoted? cs).isSome ∨ cs.any isBracket = false) := by
    simp [hquoted, hbracket]
  rw [parseChars, if_neg hne, if_neg hnot] at hread
  split at hread
  · simp at hread
  · rename_i list index hparts
    split at hread
    · simp at hread
    · rename_i i hposition
      obtain ⟨hlist, -, rfl⟩ := indexParts?_eq_some_iff.mp hparts
      obtain ⟨-, hdigits, -⟩ := position?_eq_some_iff.mp hposition
      have hindex : ∀ c ∈ '[' :: index ++ [']'], isQuote c = false := by
        simp only [List.cons_append, List.forall_mem_cons, List.forall_mem_append]
        exact ⟨rfl, fun c hc => not_isQuote_of_isDigit (hdigits c hc),
          rfl, List.forall_mem_nil _⟩
      cases hlist with
      | quoted quote free =>
        rw [hhead _ rfl] at quote
        exact absurd quote (by decide)
      | plain chars =>
        have hplain := List.forall_mem_append.mpr ⟨fun c hc => (chars c hc).1, hindex⟩
        exact absurd (eq_of_pass? hplain hopen) (by simp)

/-- **What leaves a quote open can be closed to a key.** The quote is closed, and another two follow
that make the whole a quoted text if it begins with a quote. -/
theorem exists_parseChars_closed {cs : List Char} {segment : Segment} {q : Char}
    (hread : parseChars cs = .ok segment) (hopen : pass? '.' none cs = some (some q)) :
    ∃ c, isQuote c = true ∧ ∃ key, parseChars (cs ++ ['.', q, c, c]) = .ok (.key key) := by
  have hq : isQuote q = true := isQuote_of_pass? (by simp) hopen
  have hkey : ∀ {text : List Char}, text ≠ [] → (quoted? text).isSome ∨ text.any isBracket = false →
      ∃ key, parseChars text = .ok (.key key) := fun hne h => by
    rw [parseChars, if_neg hne, if_pos h]
    exact ⟨_, rfl⟩
  obtain ⟨d, rest, rfl⟩ : ∃ d rest, cs = d :: rest := List.exists_cons_of_ne_nil fun hnil => by
    rw [hnil] at hopen
    exact absurd hopen (by simp [pass?])
  cases hd : isQuote d with
  | true =>
    refine ⟨d, hd, hkey (by simp) (.inl ?_)⟩
    have htext : d :: rest ++ ['.', q, d, d] = d :: (rest ++ ['.', q, d]) ++ [d] := by simp
    rw [htext, quoted?_enclosed hd]
    rfl
  | false =>
    have hfree := any_isBracket_of_open hread hopen fun c hc => Option.some.inj hc ▸ hd
    have hbracket : isBracket q = false := by
      rcases isQuote_iff.mp hq with rfl | rfl <;> rfl
    refine ⟨q, hq, hkey (by simp) (.inr ?_)⟩
    rw [List.any_append, hfree]
    simp [hbracket, show isBracket '.' = false from rfl]

end ScopedConfig.Segment
