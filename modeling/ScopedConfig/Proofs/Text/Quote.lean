import Mathlib.Data.List.Basic
import ScopedConfig.Proofs.Text.Blank
import ScopedConfig.Text.Quote

/-!
# Texts that a search for a mark passes over

A search for a mark outside quotes passes over a text in which it meets none. What it passes over
stays in one piece, so texts that leave no quote open are cut exactly at the marks between them. And
what a text is cut into are such texts: only the last piece may leave a quote open. A search comes
out of all quotes behind the texts whose quotes are closed and whose marks stand in quotes.

Key definitions: `Text.pass?`, `Text.Closed`, `Text.Cut`.
Key theorems: `Text.splitOutside_append`, `Text.cutOutside?_eq_some_iff`, `Text.closed_iff`,
`Text.quoted?_enclosed`, `Text.eq_of_unquote_eq`, `Text.cut_splitOutside`,
`Text.splitOutside_eq_iff`, `Text.splitOutside_intercalate`.
-/

namespace ScopedConfig.Text

variable {mark : Char}

/-- The quote that is open behind a text, unless a mark stands in the text outside quotes. -/
def pass? (mark : Char) : Option Char → List Char → Option (Option Char)
  | q, [] => some q
  | q, c :: cs => if q = none ∧ c = mark then none else pass? mark (quoteAfter q c) cs

theorem isQuote_iff {c : Char} : isQuote c = true ↔ c = '\'' ∨ c = '"' := by
  simp [isQuote]

theorem pass?_cons_iff {q q' : Option Char} {c : Char} {cs : List Char} :
    pass? mark q (c :: cs) = some q' ↔
      ¬(q = none ∧ c = mark) ∧ pass? mark (quoteAfter q c) cs = some q' := by
  rw [pass?]
  split
  · rename_i hmark
    simp [hmark]
  · rename_i hpass
    simp [hpass]

theorem pass?_append_eq_bind (ds : List Char) : ∀ (cs : List Char) (q : Option Char),
    pass? mark q (cs ++ ds) = (pass? mark q cs).bind (pass? mark · ds)
  | [], _ => rfl
  | c :: cs, q => by
    rw [List.cons_append, pass?, pass?]
    split
    · rfl
    · exact pass?_append_eq_bind ds cs (quoteAfter q c)

theorem pass?_append {cs ds : List Char} {q q' q'' : Option Char} (h : pass? mark q cs = some q')
    (h' : pass? mark q' ds = some q'') : pass? mark q (cs ++ ds) = some q'' := by
  rw [pass?_append_eq_bind, h, Option.bind_some, h']

theorem quoteAfter_of_not_isQuote {q : Option Char} (hq : ∀ p, q = some p → isQuote p = true)
    {c : Char} (hc : isQuote c = false) : quoteAfter q c = q := by
  cases q with
  | none => simp [quoteAfter, hc]
  | some p =>
    have hne : c ≠ p := by
      rintro rfl
      exact absurd (hq c rfl) (by simp [hc])
    rw [quoteAfter, if_neg hne]

theorem pass?_of_unquoted {q : Option Char} (hq : ∀ p, q = some p → isQuote p = true) :
    ∀ {cs : List Char}, (∀ c ∈ cs, isQuote c = false ∧ c ≠ mark) → pass? mark q cs = some q
  | [], _ => rfl
  | c :: cs, h => by
    obtain ⟨hquote, hmark⟩ := h c (List.mem_cons_self ..)
    refine pass?_cons_iff.mpr ⟨fun hc => hmark hc.2, ?_⟩
    rw [quoteAfter_of_not_isQuote hq hquote]
    exact pass?_of_unquoted hq fun d hd => h d (List.mem_cons_of_mem _ hd)

theorem pass?_of_plain {cs : List Char} (h : ∀ c ∈ cs, isQuote c = false ∧ c ≠ mark) :
    pass? mark none cs = some none :=
  pass?_of_unquoted (by simp) h

theorem eq_of_pass? {q' : Option Char} : ∀ {cs : List Char},
    (∀ c ∈ cs, isQuote c = false) → pass? mark none cs = some q' → q' = none
  | [], _, h => (Option.some.inj h).symm
  | c :: cs, hcs, h => by
    obtain ⟨-, h⟩ := pass?_cons_iff.mp h
    rw [quoteAfter, hcs c (List.mem_cons_self ..)] at h
    exact eq_of_pass? (fun d hd => hcs d (List.mem_cons_of_mem c hd)) h

/-- A quote runs to the next occurrence of its character. -/
theorem pass?_of_quoted {q : Char} : ∀ {cs : List Char}, q ∉ cs →
    pass? mark (some q) (cs ++ [q]) = some none
  | [], _ => by simp [pass?, quoteAfter]
  | c :: cs, h => by
    obtain ⟨hc, hcs⟩ := not_or.mp fun hm => h (List.mem_cons.mpr hm)
    have hafter : quoteAfter (some q) c = some q := by simp [quoteAfter, Ne.symm hc]
    refine pass?_cons_iff.mpr ⟨by simp, ?_⟩
    rw [hafter]
    exact pass?_of_quoted hcs

theorem pass?_enclosed {q : Char} (hq : isQuote q = true) (hmark : q ≠ mark) {inner : List Char}
    (free : q ∉ inner) : pass? mark none (q :: inner ++ [q]) = some none := by
  have hafter : quoteAfter none q = some q := if_pos hq
  refine pass?_cons_iff.mpr ⟨fun hc => hmark hc.2, ?_⟩
  rw [hafter]
  exact pass?_of_quoted free

/-- A character that is no mark outside quotes stands in front of the first piece. -/
theorem exists_of_splitOutside_cons {q : Option Char} {c : Char} {cs piece : List Char}
    {pieces : List (List Char)} (hc : ¬(q = none ∧ c = mark))
    (h : splitOutside mark q (c :: cs) = piece :: pieces) :
    ∃ first, splitOutside mark (quoteAfter q c) cs = first :: pieces ∧ piece = c :: first := by
  obtain ⟨first, others, hfirst⟩ :=
    List.exists_cons_of_ne_nil (splitOutside_ne_nil mark (quoteAfter q c) cs)
  rw [splitOutside, if_neg hc, hfirst] at h
  obtain ⟨rfl, rfl⟩ := List.cons.inj h
  exact ⟨first, hfirst, rfl⟩

/-- **What is passed over stays in one piece.** -/
theorem splitOutside_append (rest : List Char) : ∀ {cs : List Char} {q q' : Option Char},
    pass? mark q cs = some q' →
      splitOutside mark q (cs ++ rest) = cs.foldr consHead (splitOutside mark q' rest)
  | [], q, q', h => by
    obtain rfl := Option.some.inj h
    rfl
  | c :: cs, q, q', h => by
    obtain ⟨hpass, h⟩ := pass?_cons_iff.mp h
    rw [List.cons_append, splitOutside, if_neg hpass, splitOutside_append rest h, List.foldr_cons]

theorem splitOutside_of_pass? {cs : List Char} {q q' : Option Char}
    (h : pass? mark q cs = some q') : splitOutside mark q cs = [cs] := by
  have hsplit := splitOutside_append [] h
  rwa [List.append_nil, splitOutside, foldr_consHead, List.append_nil] at hsplit

theorem isQuote_of_pass? {q' : Char} : ∀ {cs : List Char} {q : Option Char},
    (∀ c, q = some c → isQuote c = true) → pass? mark q cs = some (some q') → isQuote q' = true
  | [], _, hq, h => hq q' (Option.some.inj h)
  | c :: cs, q, hq, h => by
    refine isQuote_of_pass? (fun d hd => ?_) (pass?_cons_iff.mp h).2
    cases q with
    | none =>
      by_cases hc : isQuote c
      · rw [quoteAfter, if_pos hc] at hd
        exact Option.some.inj hd ▸ hc
      · rw [quoteAfter, if_neg hc] at hd
        exact absurd hd (by simp)
    | some p =>
      by_cases hc : c = p
      · rw [quoteAfter, if_pos hc] at hd
        exact absurd hd (by simp)
      · rw [quoteAfter, if_neg hc] at hd
        exact Option.some.inj hd ▸ hq p rfl

/-- **Blanks around a text change nothing for a search.** -/
theorem pass?_trim (hmark : isBlank mark = false) (cs : List Char) :
    pass? mark none (trim cs) = pass? mark none cs := by
  have hblank : ∀ b, isBlank b = true → isQuote b = false ∧ b ≠ mark := fun b hb => by
    refine ⟨Bool.eq_false_iff.mpr fun hquote => ?_, ?_⟩
    · rcases isQuote_iff.mp hquote with rfl | rfl <;> exact absurd hb (by decide)
    · rintro rfl
      exact absurd hb (by simp [hmark])
  obtain ⟨fs, bs, hcs, hf, hb⟩ := exists_eq_trim cs
  have hfront : pass? mark none fs = some none :=
    pass?_of_unquoted (by simp) fun b hm => hblank b (hf b hm)
  conv_rhs => rw [hcs, pass?_append_eq_bind, pass?_append_eq_bind, hfront, Option.bind_some]
  cases hpass : pass? mark none (trim cs) with
  | none => rfl
  | some q =>
    have hq : ∀ p, q = some p → isQuote p = true := by
      rintro p rfl
      exact isQuote_of_pass? (by simp) hpass
    exact (pass?_of_unquoted hq fun b hm => hblank b (hb b hm)).symm

/-- Texts that leave no quote open, with a mark behind each, are the first pieces. -/
theorem splitOutside_terminated (tail : List Char) : ∀ {pieces : List (List Char)},
    (∀ p ∈ pieces, pass? mark none p = some none) →
      splitOutside mark none (pieces.flatMap (· ++ [mark]) ++ tail) =
        pieces ++ splitOutside mark none tail
  | [], _ => rfl
  | p :: pieces, h => by
    have ih := splitOutside_terminated tail fun t ht => h t (List.mem_cons_of_mem p ht)
    rw [List.flatMap_cons, List.append_assoc, List.append_assoc,
      splitOutside_append _ (h p (List.mem_cons_self ..)), List.singleton_append, splitOutside,
      if_pos ⟨rfl, rfl⟩, ih, foldr_consHead, List.append_nil, List.cons_append]

/-- **The first mark behind a text that is passed over cuts.** -/
theorem cutOutside?_append (rest : List Char) : ∀ {cs : List Char} {q : Option Char},
    pass? mark q cs = some none → cutOutside? mark q (cs ++ mark :: rest) = some (cs, rest)
  | [], q, h => by
    obtain rfl := Option.some.inj h
    rw [List.nil_append, cutOutside?, if_pos ⟨rfl, rfl⟩]
  | c :: cs, q, h => by
    obtain ⟨hpass, h⟩ := pass?_cons_iff.mp h
    rw [List.cons_append, cutOutside?, if_neg hpass, cutOutside?_append rest h]
    rfl

/-- **A text is cut at the first mark outside quotes.** -/
theorem cutOutside?_eq_some_iff {cs left right : List Char} {q : Option Char} :
    cutOutside? mark q cs = some (left, right) ↔
      cs = left ++ mark :: right ∧ pass? mark q left = some none := by
  refine ⟨fun h => ?_, fun ⟨hcs, hpass⟩ => hcs ▸ cutOutside?_append right hpass⟩
  induction cs generalizing q left with
  | nil => simp [cutOutside?] at h
  | cons c cs ih =>
    rw [cutOutside?] at h
    by_cases hmark : q = none ∧ c = mark
    · rw [if_pos hmark] at h
      obtain ⟨rfl, rfl⟩ := Prod.mk.inj (Option.some.inj h)
      rw [hmark.1, hmark.2]
      exact ⟨rfl, rfl⟩
    · rw [if_neg hmark] at h
      obtain ⟨⟨front, behind⟩, hcut, hparts⟩ := Option.map_eq_some_iff.mp h
      obtain ⟨rfl, rfl⟩ := Prod.mk.inj hparts
      obtain ⟨rfl, hpass⟩ := ih hcut
      exact ⟨rfl, pass?_cons_iff.mpr ⟨hmark, hpass⟩⟩

/-! ### Texts whose quotes are closed -/

/-- Every quote in the text is closed, and every mark in it stands in a quote. -/
inductive Closed (mark : Char) : List Char → Prop
  | nil : Closed mark []
  | plain {c : Char} {cs : List Char} (quote : isQuote c = false) (ne : c ≠ mark)
      (rest : Closed mark cs) : Closed mark (c :: cs)
  | quoted {q : Char} {inner cs : List Char} (quote : isQuote q = true) (free : q ∉ inner)
      (rest : Closed mark cs) : Closed mark (q :: inner ++ q :: cs)

theorem exists_of_pass?_some {q : Char} : ∀ {cs : List Char},
    pass? mark (some q) cs = some none →
      ∃ inner rest, cs = inner ++ q :: rest ∧ q ∉ inner ∧ pass? mark none rest = some none
  | [], h => by simp [pass?] at h
  | c :: cs, h => by
    obtain ⟨-, h⟩ := pass?_cons_iff.mp h
    by_cases hc : c = q
    · rw [hc, quoteAfter, if_pos rfl] at h
      exact ⟨[], cs, by rw [hc]; rfl, List.not_mem_nil, h⟩
    · rw [quoteAfter, if_neg hc] at h
      obtain ⟨inner, rest, rfl, hfree, hrest⟩ := exists_of_pass?_some h
      refine ⟨c :: inner, rest, rfl, fun hm => ?_, hrest⟩
      rcases List.mem_cons.mp hm with hqc | hm
      · exact hc hqc.symm
      · exact hfree hm

theorem closed_of_pass? : ∀ cs : List Char, pass? mark none cs = some none → Closed mark cs
  | [], _ => .nil
  | c :: cs, h => by
    obtain ⟨hmark, hrest⟩ := pass?_cons_iff.mp h
    cases hc : isQuote c with
    | false =>
      rw [quoteAfter_of_not_isQuote (by simp) hc] at hrest
      exact .plain hc (fun he => hmark ⟨rfl, he⟩) (closed_of_pass? cs hrest)
    | true =>
      rw [quoteAfter, if_pos hc] at hrest
      obtain ⟨inner, rest, hcs, hfree, hclosed⟩ := exists_of_pass?_some hrest
      rw [hcs]
      exact .quoted hc hfree (closed_of_pass? rest hclosed)
termination_by cs => cs.length
decreasing_by
  · exact Nat.lt_succ_self _
  · rw [hcs, List.length_cons, List.length_append, List.length_cons]
    omega

/-- **A search passes over the texts whose quotes are closed**, and comes out of all quotes. -/
theorem closed_iff (hmark : isQuote mark = false) {cs : List Char} :
    Closed mark cs ↔ pass? mark none cs = some none := by
  refine ⟨fun h => ?_, closed_of_pass? cs⟩
  induction h with
  | nil => rfl
  | plain quote ne rest ih =>
    refine pass?_cons_iff.mpr ⟨fun hc => ne hc.2, ?_⟩
    rwa [quoteAfter_of_not_isQuote (by simp) quote]
  | @quoted q inner cs quote free rest ih =>
    have hne : q ≠ mark := by
      rintro rfl
      exact absurd quote (by simp [hmark])
    have hpass := pass?_append (pass?_enclosed quote hne free) ih
    rwa [List.append_assoc, List.singleton_append] at hpass

/-! ### Texts in quotes -/

theorem quoted?_enclosed {q : Char} (hq : isQuote q = true) (inner : List Char) :
    quoted? (q :: inner ++ [q]) = some inner := by
  rw [quoted?]
  by_cases hsingle : q = '\''
  · rw [hsingle, enclosed?_cons_concat]
    rfl
  · have hdouble : q = '"' := by simpa [isQuote, hsingle] using hq
    rw [hdouble, enclosed?_of_head_ne (by simp), enclosed?_cons_concat]
    rfl

/-- **A text in quotes begins and ends with the same quote character.** -/
theorem quoted?_eq_some_iff {cs inner : List Char} :
    quoted? cs = some inner ↔ ∃ q, isQuote q = true ∧ cs = q :: inner ++ [q] := by
  constructor
  · intro h
    rw [quoted?] at h
    cases hsingle : enclosed? '\'' '\'' cs with
    | some _ =>
      rw [hsingle] at h
      obtain rfl := Option.some.inj h
      exact ⟨'\'', rfl, eq_of_enclosed? hsingle⟩
    | none =>
      rw [hsingle] at h
      exact ⟨'"', rfl, eq_of_enclosed? h⟩
  · rintro ⟨q, hq, rfl⟩
    exact quoted?_enclosed hq inner

theorem quoted?_of_getLast? {c : Char} {cs : List Char} (h : cs.getLast? = some c)
    (hc : isQuote c = false) : quoted? cs = none := by
  have hnone : ∀ q, isQuote q = true → enclosed? q q cs = none := fun q hq => by
    refine Option.eq_none_iff_forall_ne_some.mpr fun inner hinner => ?_
    rw [eq_of_enclosed? hinner, List.getLast?_concat] at h
    rw [Option.some.inj h, hc] at hq
    exact absurd hq (by decide)
  rw [quoted?, hnone '\'' rfl, hnone '"' rfl]
  rfl

theorem unquote_cases (cs : List Char) :
    (∃ q, isQuote q = true ∧ cs = q :: unquote cs ++ [q]) ∨ unquote cs = cs := by
  rw [unquote]
  cases h : quoted? cs with
  | some inner => exact .inl (quoted?_eq_some_iff.mp h)
  | none => exact .inr rfl

/-- A text without its quotes lacks two of its quote character, or is the whole text. So the count
of this character tells which. -/
theorem eq_enclosed_of_unquote {q : Char} {cs inner : List Char} (h : unquote cs = inner)
    (hcount : cs.count q = (q :: inner ++ [q]).count q) : cs = q :: inner ++ [q] := by
  have htwo : (q :: inner ++ [q]).count q = inner.count q + 2 := by simp
  rcases unquote_cases cs with ⟨p, -, hcs⟩ | hcs <;> rw [h] at hcs
  · by_cases hpq : p = q
    · rw [hcs, hpq]
    · have hnone : cs.count q = inner.count q := by
        rw [hcs]
        simp [hpq]
      omega
  · rw [← hcs] at hcount
    omega

/-- **Texts with the same quote characters are the same if they are without their quotes.** -/
theorem eq_of_unquote_eq {cs ds : List Char} (h : unquote cs = unquote ds)
    (hcount : ∀ q, isQuote q = true → cs.count q = ds.count q) : cs = ds := by
  rcases unquote_cases cs with ⟨q, hq, hcs⟩ | hcs
  · have hds := eq_enclosed_of_unquote h.symm (by rw [← hcs, hcount q hq])
    exact hcs.trans hds.symm
  · rcases unquote_cases ds with ⟨q, hq, hds⟩ | hds
    · have hcs := eq_enclosed_of_unquote h (by rw [← hds, hcount q hq])
      exact hcs.trans hds.symm
    · exact hcs.symm.trans (h.trans hds)

/-! ### What a text is cut into -/

/-- Pieces that a search passes over. It comes from a quote, or from none, and none but the last
piece leaves one open. -/
inductive Cut (mark : Char) : Option Char → List (List Char) → Prop
  | last {q q' : Option Char} {piece : List Char} (pass : pass? mark q piece = some q') :
      Cut mark q [piece]
  | more {q : Option Char} {piece : List Char} {pieces : List (List Char)}
      (pass : pass? mark q piece = some none) (rest : Cut mark none pieces) :
      Cut mark q (piece :: pieces)

namespace Cut

variable {pieces : List (List Char)} {piece : List Char}

theorem ne_nil {q : Option Char} (h : Cut mark q pieces) : pieces ≠ [] := by
  cases h <;> simp

theorem consHead {q : Option Char} {c : Char} (h : Cut mark (quoteAfter q c) pieces)
    (hc : ¬(q = none ∧ c = mark)) : Cut mark q (consHead c pieces) := by
  cases h with
  | last pass => exact .last (pass?_cons_iff.mpr ⟨hc, pass⟩)
  | more pass rest => exact .more (pass?_cons_iff.mpr ⟨hc, pass⟩) rest

end Cut

/-- **Each piece is passed over from its own start**, and none but the last leaves a quote open. -/
theorem cut_iff : ∀ {pieces : List (List Char)}, Cut mark none pieces ↔
    pieces ≠ [] ∧ (∀ p ∈ pieces, ∃ q, pass? mark none p = some q) ∧
      ∀ p ∈ pieces.dropLast, pass? mark none p = some none
  | [] => ⟨fun h => absurd rfl h.ne_nil, fun h => absurd rfl h.1⟩
  | [p] => by
    rw [List.forall_mem_singleton]
    constructor
    · intro h
      cases h with
      | last pass => exact ⟨by simp, ⟨_, pass⟩, by simp⟩
      | more pass rest => exact absurd rfl rest.ne_nil
    · rintro ⟨-, ⟨q, hq⟩, -⟩
      exact .last hq
  | p :: next :: rest => by
    have ih := @cut_iff (next :: rest)
    rw [List.dropLast_cons_cons, @List.forall_mem_cons _ _ p (next :: rest).dropLast]
    constructor
    · intro h
      cases h with
      | more pass behind =>
        obtain ⟨-, hall, hinner⟩ := ih.mp behind
        exact ⟨by simp, List.forall_mem_cons.mpr ⟨⟨none, pass⟩, hall⟩, pass, hinner⟩
    · rintro ⟨-, hall, hp, hinner⟩
      exact .more hp (ih.mpr ⟨by simp, (List.forall_mem_cons.mp hall).2, hinner⟩)

/-- **A text is cut into pieces that a search passes over.** -/
theorem cut_splitOutside (mark : Char) : ∀ (q : Option Char) (cs : List Char),
    Cut mark q (splitOutside mark q cs)
  | q, [] => .last rfl
  | q, c :: cs => by
    rw [splitOutside]
    by_cases hmark : q = none ∧ c = mark
    · rw [if_pos hmark, hmark.1]
      exact .more rfl (cut_splitOutside mark none cs)
    · rw [if_neg hmark]
      exact (cut_splitOutside mark (quoteAfter q c) cs).consHead hmark

/-! ### Pieces that are joined -/

theorem intercalate_consHead (sep : List Char) (c : Char) : ∀ {pieces : List (List Char)},
    pieces ≠ [] → sep.intercalate (consHead c pieces) = c :: sep.intercalate pieces
  | [], hne => absurd rfl hne
  | [p], _ => by rw [consHead, List.intercalate_singleton, List.intercalate_singleton]
  | p :: p' :: rest, _ => by
    rw [consHead, List.intercalate_cons_cons, List.intercalate_cons_cons, List.cons_append,
      List.cons_append]

/-- **The pieces of a text with marks between them are the text.** -/
theorem intercalate_splitOutside (mark : Char) : ∀ (q : Option Char) (cs : List Char),
    [mark].intercalate (splitOutside mark q cs) = cs
  | _, [] => rfl
  | q, c :: cs => by
    rw [splitOutside]
    by_cases hmark : q = none ∧ c = mark
    · have ih := intercalate_splitOutside mark none cs
      rw [if_pos hmark, List.intercalate_cons_of_ne_nil (splitOutside_ne_nil mark none cs), ih,
        hmark.2]
      rfl
    · have ih := intercalate_splitOutside mark (quoteAfter q c) cs
      rw [if_neg hmark, intercalate_consHead [mark] c (splitOutside_ne_nil mark _ cs), ih]

/-- **Pieces that a search passes over are what their joined text is cut into.** -/
theorem Cut.splitOutside_joined {q : Option Char} {pieces : List (List Char)}
    (h : Cut mark q pieces) : splitOutside mark q ([mark].intercalate pieces) = pieces := by
  induction h with
  | last pass => rw [List.intercalate_singleton, splitOutside_of_pass? pass]
  | more pass rest ih =>
    rw [List.intercalate_cons_of_ne_nil rest.ne_nil, List.append_assoc,
      splitOutside_append _ pass, List.singleton_append, splitOutside, if_pos ⟨rfl, rfl⟩, ih,
      foldr_consHead, List.append_nil]

/-- **A text is cut into pieces that a search passes over, and of which it is joined.** -/
theorem splitOutside_eq_iff {q : Option Char} {cs : List Char} {pieces : List (List Char)} :
    splitOutside mark q cs = pieces ↔ Cut mark q pieces ∧ [mark].intercalate pieces = cs := by
  constructor
  · rintro rfl
    exact ⟨cut_splitOutside mark q cs, intercalate_splitOutside mark q cs⟩
  · rintro ⟨hcut, rfl⟩
    exact hcut.splitOutside_joined

/-- **A text that is not cut is passed over.** -/
theorem exists_pass?_of_length_eq_one {q : Option Char} {cs : List Char}
    (h : (splitOutside mark q cs).length = 1) : ∃ q', pass? mark q cs = some q' := by
  obtain ⟨piece, hpieces⟩ := List.length_eq_one_iff.mp h
  obtain ⟨hcut, hjoined⟩ := splitOutside_eq_iff.mp hpieces
  obtain rfl : piece = cs := by rwa [List.intercalate_singleton] at hjoined
  cases hcut with
  | last pass => exact ⟨_, pass⟩
  | more pass rest => exact absurd rfl rest.ne_nil

/-- **Texts that leave no quote open are cut at the marks between them.** -/
theorem splitOutside_intercalate {pieces : List (List Char)} (hne : pieces ≠ [])
    (h : ∀ p ∈ pieces, pass? mark none p = some none) :
    splitOutside mark none ([mark].intercalate pieces) = pieces := by
  refine Cut.splitOutside_joined (cut_iff.mpr ⟨hne, fun p hp => ⟨none, h p hp⟩, fun p hp => ?_⟩)
  exact h p (List.dropLast_subset pieces hp)

/-! ### What stands in the pieces -/

theorem mem_of_mem_splitOutside {d : Char} {q : Option Char} {cs piece : List Char}
    (hp : piece ∈ splitOutside mark q cs) (hd : d ∈ piece) : d ∈ cs := by
  rw [← intercalate_splitOutside mark q cs]
  exact mem_intercalate_of_mem hp hd

theorem mem_of_mem_unquote {d : Char} {cs : List Char} (h : d ∈ unquote cs) : d ∈ cs := by
  rcases unquote_cases cs with ⟨q, -, hcs⟩ | hcs
  · rw [hcs]
    exact List.mem_append_left _ (List.mem_cons_of_mem q h)
  · rwa [hcs] at h

end ScopedConfig.Text
