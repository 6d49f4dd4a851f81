import Mathlib.Data.List.Infix
import ScopedConfig.Proofs.Address.Indexed
import ScopedConfig.Proofs.Address.Pieces
import ScopedConfig.Proofs.Address.Reading
import ScopedConfig.Proofs.Text.Quote

/-!
# Remembered segments in a name

The leading dots of a name put remembered segments into the address, each with a dot behind it, and
the rest of the name follows. The rest is scanned as if no quote was open there, and the address is
then cut with the quotes of the segments that were put in front. What is remembered of an address
are its pieces, so all of them but the last leave no quote open, and two scans can only differ
behind the last one. Where they do not differ, no two dots meet outside quotes, and no piece but the
last is empty.

If the last remembered segment leaves a quote open, they differ: behind as many dots as there are
segments, two dots in a quote of the name stand outside the quotes of the address.

Key definitions: `Address.leadingDots`, `Address.behindDots`, `Address.Retained`,
`Address.LeavesOpen`.
Key theorems: `Address.expandFrom_eq`, `Address.empty_not_mem_of_expandRest`,
`Address.retained_remembered`, `Address.Retained.leavesOpen_of_emptySegment`,
`Address.Retained.exists_emptySegment`.
-/

namespace ScopedConfig.Address

open Text

/-! ### The leading dots -/

/-- A character that a name may have in front of its content. -/
def isLead (c : Char) : Bool :=
  c == ' ' || c == '.'

/-- The number of dots in front of the content of a name. -/
def leadingDots (cs : List Char) : Nat :=
  (cs.takeWhile isLead).count '.'

/-- The content of a name, which begins with neither a dot nor a space. -/
def behindDots (cs : List Char) : List Char :=
  cs.dropWhile isLead

/-- Segments as they stand in front of the content, with a dot behind each. -/
def pasted (segments : List String) : List Char :=
  (segments.map String.toList).flatMap (· ++ ['.'])

/-- What stands behind the pasted segments: the content, or one more segment if there is none. -/
def behindPasted (name : String) (remembered : List String) (dots : Nat) :
    List Char → Except Fault (List Char)
  | [] => slot name remembered dots
  | c :: cs => expandRest name none false (c :: cs)

theorem leadingDots_cons (c : Char) (cs : List Char) : leadingDots (c :: cs) =
    if isLead c then leadingDots cs + (if c = '.' then 1 else 0) else 0 := by
  unfold leadingDots
  by_cases hc : isLead c
  · rw [List.takeWhile_cons_of_pos hc, List.count_cons, if_pos hc]
    simp
  · rw [List.takeWhile_cons_of_neg hc, if_neg hc]
    rfl

theorem behindDots_cons (c : Char) (cs : List Char) :
    behindDots (c :: cs) = if isLead c then behindDots cs else c :: cs :=
  List.dropWhile_cons

/-- **A name is its leading dots and its content.** -/
theorem expandFrom_eq (name : String) (remembered : List String) : ∀ {cs : List Char} {dots : Nat},
    dots + leadingDots cs ≤ remembered.length →
      expandFrom name remembered dots cs =
        (behindPasted name remembered (dots + leadingDots cs) (behindDots cs)).map
          (pasted ((remembered.drop dots).take (leadingDots cs)) ++ ·)
  | [], dots, _ => (map_nil_append _).symm
  | c :: cs, dots, h => by
    rw [expandFrom]
    rw [leadingDots_cons] at h
    rw [leadingDots_cons, behindDots_cons]
    by_cases hspace : c = ' '
    · subst hspace
      simp only [isLead, beq_self_eq_true, Bool.true_or, if_true, Nat.add_zero,
        show ¬(' ' = '.') from by decide, if_false] at h ⊢
      exact expandFrom_eq name remembered h
    · by_cases hdot : c = '.'
      · subst hdot
        simp only [isLead, beq_self_eq_true, Bool.or_true, if_true, hspace, if_false] at h ⊢
        have hlt : dots < remembered.length := by omega
        have ih := @expandFrom_eq name remembered cs (dots + 1) (by omega)
        have hcount : dots + 1 + leadingDots cs = dots + (leadingDots cs + 1) := by omega
        rw [slot, List.getElem?_eq_getElem hlt, List.drop_eq_getElem_cons hlt, List.take_succ_cons]
        simp only [ih, hcount, map_map]
        simp [pasted]
      · have hlead : isLead c = false := by simp [isLead, hspace, hdot]
        simp only [hspace, hdot, hlead, if_false, Bool.false_eq_true]
        exact (map_nil_append _).symm

theorem expandFrom_of_lt {name : String} {remembered : List String} :
    ∀ {cs : List Char} {dots : Nat}, dots ≤ remembered.length →
      remembered.length < dots + leadingDots cs →
        expandFrom name remembered dots cs = .error (.tooManyDots name remembered.length)
  | [], _, hle, hlt => absurd hlt (Nat.not_lt.mpr hle)
  | c :: cs, dots, hle, hlt => by
    rw [leadingDots_cons] at hlt
    rw [expandFrom]
    by_cases hspace : c = ' '
    · subst hspace
      exact expandFrom_of_lt hle hlt
    · rw [if_neg hspace]
      by_cases hdot : c = '.'
      · subst hdot
        rw [if_pos rfl, slot]
        cases hget : remembered[dots]? with
        | none => rfl
        | some s =>
          have hdots : dots < remembered.length := (List.getElem?_eq_some_iff.mp hget).1
          have hlead : isLead '.' = true := rfl
          rw [if_pos hlead, if_pos rfl] at hlt
          have ih := @expandFrom_of_lt name remembered cs (dots + 1) hdots (by omega)
          simp only [ih]
          rfl
      · have hlead : isLead c = false := by simp [isLead, hspace, hdot]
        rw [if_neg (by simp [hlead])] at hlt
        exact absurd hlt (Nat.not_lt.mpr hle)

theorem leadingDots_le {name : String} {remembered : List String} {cs text : List Char} {dots : Nat}
    (hle : dots ≤ remembered.length) (h : expandFrom name remembered dots cs = .ok text) :
    dots + leadingDots cs ≤ remembered.length := Nat.not_lt.mp fun hlt => by
  rw [expandFrom_of_lt hle hlt] at h
  simp at h

/-! ### No two dots meet -/

/-- **No two dots meet in the content of a name.** None of the pieces that the rest is cut into is
empty, except the last one, and the first one unless a dot stands in front of it. -/
theorem empty_not_mem_of_expandRest {name : String} : ∀ {cs text piece : List Char}
    {pieces : List (List Char)} {q : Option Char} {afterDot : Bool},
    expandRest name q afterDot cs = .ok text → splitOutside '.' q text = piece :: pieces →
      [] ∉ pieces.dropLast ∧ (q = none → afterDot = true → [] ∉ (piece :: pieces).dropLast)
  | [], text, piece, pieces, q, _, h, hsplit => by
    obtain rfl : text = [] := by
      cases q <;> exact (Except.ok.inj h).symm
    obtain ⟨rfl, rfl⟩ := List.cons.inj hsplit
    simp
  | c :: cs, text, piece, pieces, some q, afterDot, h, hsplit => by
    obtain ⟨rest, hrest, rfl⟩ := exists_of_map h
    obtain ⟨first, hfirst, -⟩ := exists_of_splitOutside_cons (by simp) hsplit
    exact ⟨(empty_not_mem_of_expandRest hrest hfirst).1, fun hq => absurd hq (by simp)⟩
  | c :: cs, text, piece, pieces, none, afterDot, h, hsplit => by
    rw [expandRest] at h
    by_cases hspace : c = ' '
    · rw [if_pos hspace] at h
      exact empty_not_mem_of_expandRest h hsplit
    · rw [if_neg hspace] at h
      by_cases hdot : c = '.'
      · rw [if_pos hdot] at h
        split at h
        · simp at h
        · rename_i hafter
          -- behind the dot the first piece is not empty, unless it is the last
          obtain ⟨rest, hrest, rfl⟩ := exists_of_map h
          rw [splitOutside, if_pos ⟨rfl, rfl⟩] at hsplit
          obtain ⟨rfl, rfl⟩ := List.cons.inj hsplit
          obtain ⟨first, others, hfirst⟩ :=
            List.exists_cons_of_ne_nil (splitOutside_ne_nil '.' none rest)
          have ih := (empty_not_mem_of_expandRest hrest hfirst).2 rfl rfl
          rw [hfirst]
          exact ⟨ih, fun _ ht => absurd ht hafter⟩
      · rw [if_neg hdot] at h
        obtain ⟨rest, hrest, rfl⟩ := exists_of_map h
        obtain ⟨first, hfirst, rfl⟩ := exists_of_splitOutside_cons (fun hc => hdot hc.2) hsplit
        have ih := (empty_not_mem_of_expandRest hrest hfirst).1
        refine ⟨ih, fun _ _ hm => ?_⟩
        cases pieces with
        | nil => simp at hm
        | cons next others =>
          rw [List.dropLast_cons_cons, List.mem_cons] at hm
          rcases hm with hm | hm
          · exact absurd hm.symm (List.cons_ne_nil c first)
          · exact ih hm

/-! ### What is remembered -/

/-- Segments as they are remembered: each was read as a segment, and none but the last leaves a
quote open. -/
structure Retained (remembered : List String) : Prop where
  nonempty : ∀ s ∈ remembered, s.toList ≠ []
  read : ∀ s ∈ remembered, ∃ segment, Segment.parseChars s.toList = .ok segment
  closed : ∀ s ∈ remembered.dropLast, pass? '.' none s.toList = some none
  last : ∀ s, remembered.getLast? = some s → ∃ q, pass? '.' none s.toList = some q

theorem retained_nil : Retained [] :=
  ⟨by simp, by simp, by simp, by simp⟩

theorem retained_of_pieces {pieces : List (List Char)} (hempty : [] ∉ pieces)
    (hread : ∀ piece ∈ pieces, ∃ segment, Segment.parseChars piece = .ok segment)
    (hclosed : ∀ piece ∈ pieces.dropLast, pass? '.' none piece = some none)
    (hlast : ∀ piece, pieces.getLast? = some piece → ∃ q, pass? '.' none piece = some q) :
    Retained (pieces.map String.ofList) := by
  refine ⟨?_, ?_, ?_, ?_⟩
  · simp only [List.forall_mem_map, String.toList_ofList]
    exact fun piece hp hnil => hempty (hnil ▸ hp)
  · simpa only [List.forall_mem_map, String.toList_ofList] using hread
  · rw [← List.map_dropLast]
    simpa only [List.forall_mem_map, String.toList_ofList] using hclosed
  · intro s hs
    rw [List.getLast?_map] at hs
    obtain ⟨piece, hp, rfl⟩ := Option.map_eq_some_iff.mp hs
    rw [String.toList_ofList]
    exact hlast piece hp

/-- **What is remembered of an address is retained.** -/
theorem retained_remembered {name : String} {remembered : List String} {a : Address}
    (h : ofName name remembered = .ok a) : Retained (Address.remembered a.text) := by
  have hparse := parse_of_ofName h
  have hread := exists_parseChars_of_mem hparse
  have hinner := (parseSegments_eq_ok_iff.mp hparse).1
  have hcut : Cut '.' none (splitChars a.text.toList) := cut_splitOutside '.' none _
  obtain ⟨-, hpass, hclosed⟩ := cut_iff.mp hcut
  unfold Address.remembered split
  generalize splitChars a.text.toList = pieces at *
  simp only [List.getLast?_map, ← List.map_dropLast]
  by_cases hmarker : pieces.getLast? = some []
  · -- the marker is left out, and no piece in front of it leaves a quote open
    have hlast : (pieces.getLast?.map String.ofList) = some "" := by rw [hmarker]; rfl
    rw [if_pos hlast]
    refine retained_of_pieces hinner (fun piece hp => hread piece (List.mem_of_mem_dropLast hp))
      (fun piece hp => hclosed piece (List.mem_of_mem_dropLast hp)) fun piece hp => ?_
    exact ⟨none, hclosed piece (List.mem_of_getLast? hp)⟩
  · have hlast : (pieces.getLast?.map String.ofList) ≠ some "" := fun hl => by
      obtain ⟨piece, hp, hpiece⟩ := Option.map_eq_some_iff.mp hl
      have hnil : piece = [] := by simpa using hpiece
      exact hmarker (hnil ▸ hp)
    have hempty : [] ∉ pieces := fun hm =>
      hinner (List.mem_dropLast_of_mem_of_ne_getLast? hm fun he => hmarker he.symm)
    rw [if_neg hlast]
    exact retained_of_pieces hempty hread hclosed fun piece hp =>
      hpass piece (List.mem_of_getLast? hp)

/-! ### Where a piece is empty -/

/-- The last remembered segment leaves a quote open. -/
def LeavesOpen (remembered : List String) (q : Char) : Prop :=
  ∃ s, remembered.getLast? = some s ∧ pass? '.' none s.toList = some (some q)

theorem splitChars_pasted {segments : List String} (tail : List Char)
    (h : ∀ s ∈ segments, pass? '.' none s.toList = some none) :
    splitChars (pasted segments ++ tail) = segments.map String.toList ++ splitChars tail := by
  rw [pasted, splitChars, splitOutside_terminated tail (List.forall_mem_map.mpr h), splitChars]

/-- In front of pieces that can be read, an empty piece that is not the last is what an address is
refused for. -/
theorem parseSegments_of_empty (address : String) (next : List Char) (rest : List (List Char)) :
    ∀ {pieces : List (List Char)}, (∀ piece ∈ pieces, piece ≠ []) →
      (∀ piece ∈ pieces, ∃ segment, Segment.parseChars piece = .ok segment) →
        parseSegments address (pieces ++ [] :: next :: rest) = .error (.emptySegment address)
  | [], _, _ => by rw [List.nil_append, parseSegments, if_pos rfl]
  | piece :: pieces, hne, hread => by
    obtain ⟨hpiece, hne⟩ := List.forall_mem_cons.mp hne
    obtain ⟨⟨segment, hsegment⟩, hread⟩ := List.forall_mem_cons.mp hread
    have ih := parseSegments_of_empty address next rest hne hread
    obtain ⟨first, others, hothers⟩ : ∃ first others, pieces ++ [] :: next :: rest =
        first :: others := List.exists_cons_of_ne_nil (by simp)
    rw [hothers] at ih
    rw [List.cons_append, hothers, parseSegments, if_neg hpiece, hsegment]
    simp only [ih]
    rfl

namespace Retained

variable {name : String} {remembered : List String}

theorem exists_pass? (h : Retained remembered) {s : String} (hs : s ∈ remembered) :
    ∃ q, pass? '.' none s.toList = some q := by
  by_cases hlast : remembered.getLast? = some s
  · exact h.last s hlast
  · have hinner : s ∈ remembered.dropLast :=
      List.mem_dropLast_of_mem_of_ne_getLast? hs fun he => hlast he.symm
    exact ⟨none, h.closed s hinner⟩

theorem closed_take_or (h : Retained remembered) (n : Nat) :
    (∀ s ∈ remembered.take n, pass? '.' none s.toList = some none) ∨
      remembered.length ≤ n ∧ ∃ q, LeavesOpen remembered q := by
  by_cases hn : remembered.length ≤ n
  · rw [List.take_of_length_le hn]
    by_cases hall : ∀ s ∈ remembered, pass? '.' none s.toList = some none
    · exact .inl hall
    · -- the one that is not closed is the last
      obtain ⟨s, hs, hopen⟩ : ∃ s ∈ remembered, pass? '.' none s.toList ≠ some none := by
        simpa using hall
      obtain ⟨_ | q, hq⟩ := h.exists_pass? hs
      · exact absurd hq hopen
      · have hlast : remembered.getLast? = some s := by
          by_contra hne
          exact hopen (h.closed s
            (List.mem_dropLast_of_mem_of_ne_getLast? hs fun he => hne he.symm))
        exact .inr ⟨hn, q, s, hlast, hq⟩
  · have hsub : remembered.take n <+: remembered.dropLast := by
      rw [List.dropLast_eq_take]
      exact List.take_prefix_take_left (by omega)
    exact .inl fun s hs => h.closed s (hsub.subset hs)

theorem empty_not_mem_behindPasted (h : Retained remembered) {cs tail : List Char} {dots : Nat}
    (htail : behindPasted name remembered dots (behindDots cs) = .ok tail) :
    [] ∉ (splitChars tail).dropLast := by
  have hhead := List.head?_dropWhile_not isLead cs
  rw [← behindDots] at hhead
  cases hcontent : behindDots cs with
  | nil =>
    -- one remembered segment, which is one piece
    rw [hcontent, behindPasted, slot] at htail
    split at htail
    · rename_i s hs
      obtain rfl := Except.ok.inj htail
      obtain ⟨q, hq⟩ := h.exists_pass? (List.mem_of_getElem? hs)
      rw [splitChars, splitOutside_of_pass? hq]
      simp
    · simp at htail
  | cons c rest =>
    rw [hcontent, behindPasted] at htail
    rw [hcontent] at hhead
    obtain ⟨hspace, hdot⟩ : c ≠ ' ' ∧ c ≠ '.' := by simpa [isLead] using hhead
    rw [← expandRest_content hdot hspace true] at htail
    obtain ⟨piece, pieces, hpieces⟩ :=
      List.exists_cons_of_ne_nil (splitOutside_ne_nil '.' none tail)
    rw [splitChars, hpieces]
    exact (empty_not_mem_of_expandRest htail hpieces).2 rfl rfl

/-- **An empty piece comes from a quote that a remembered segment left open**, behind which the name
has its content. -/
theorem leavesOpen_of_emptySegment (h : Retained remembered) {e : Fault}
    (he : ofName name remembered = .error e) (hcode : e.code = .nameEmptySegment) :
    (∃ q, LeavesOpen remembered q) ∧ leadingDots name.toList = remembered.length ∧
      behindDots name.toList ≠ [] := by
  unfold ofName expand at he
  cases hx : expandFrom name remembered 0 name.toList with
  | error e' =>
    rw [hx] at he
    obtain rfl := Except.error.inj he
    rcases code_of_expandFrom hx with hc | hc <;> rw [hc] at hcode <;>
      exact absurd hcode (by decide)
  | ok text =>
    rw [hx] at he
    have hparse := eq_error_of_map he
    have hempty : [] ∈ (splitChars text).dropLast := by
      rw [parse, String.toList_ofList] at hparse
      rcases code_of_parseSegments hparse with ⟨-, hm⟩ | hc | hc
      · exact hm
      · rw [hc] at hcode
        exact absurd hcode (by decide)
      · rw [hc] at hcode
        exact absurd hcode (by decide)
    have hle := leadingDots_le (Nat.zero_le _) hx
    rw [expandFrom_eq name remembered hle, List.drop_zero] at hx
    obtain ⟨tail, htail, rfl⟩ := exists_of_map hx
    rw [Nat.zero_add] at htail hle
    rcases h.closed_take_or (leadingDots name.toList) with hclosed | ⟨hlen, hopen⟩
    · -- both scans see the same dots
      have hinner := h.empty_not_mem_behindPasted htail
      have hne : splitChars tail ≠ [] := splitOutside_ne_nil '.' none tail
      rw [splitChars_pasted tail hclosed, List.dropLast_append_of_ne_nil hne] at hempty
      rcases List.mem_append.mp hempty with hm | hm
      · obtain ⟨s, hs, hnil⟩ := List.mem_map.mp hm
        exact absurd hnil (h.nonempty s (List.mem_of_mem_take hs))
      · exact absurd hm hinner
    · have heq : leadingDots name.toList = remembered.length := Nat.le_antisymm hle hlen
      refine ⟨hopen, heq, fun hnil => ?_⟩
      rw [hnil, heq, behindPasted, slot, List.getElem?_eq_none (Nat.le_refl _)] at htail
      simp at htail

/-! ### A name with an empty piece -/

/-- Two dots in a quote, in front of which stands a text in other quotes. -/
def quotedDots (q c : Char) : List Char :=
  [q, c, c, '.', '.', q]

/-- The scan of the name has the two dots in a quote. -/
theorem expandRest_quotedDots (name : String) {q c : Char} (hq : isQuote q = true)
    (hc : isQuote c = true) :
    expandRest name none false (quotedDots q c) = .ok (quotedDots q c) := by
  rcases isQuote_iff.mp hq with rfl | rfl <;> rcases isQuote_iff.mp hc with rfl | rfl <;> rfl

/-- Where a quote was left open, the scan of the address has the two dots outside quotes. -/
theorem splitOutside_quotedDots {q c : Char} (hq : isQuote q = true) (hc : isQuote c = true) :
    splitOutside '.' (some q) ('.' :: quotedDots q c) = [['.', q, c, c], [], [q]] := by
  rcases isQuote_iff.mp hq with rfl | rfl <;> rcases isQuote_iff.mp hc with rfl | rfl <;> rfl

theorem leadingDots_replicate {q : Char} (hq : isQuote q = true) (content : List Char) :
    ∀ n : Nat, leadingDots (List.replicate n '.' ++ q :: content) = n ∧
      behindDots (List.replicate n '.' ++ q :: content) = q :: content
  | 0 => by
    have hlead : isLead q = false := by rcases isQuote_iff.mp hq with rfl | rfl <;> rfl
    rw [List.replicate_zero, List.nil_append, leadingDots_cons, behindDots_cons, hlead]
    exact ⟨rfl, rfl⟩
  | n + 1 => by
    obtain ⟨hdots, hcontent⟩ := leadingDots_replicate hq content n
    have hlead : isLead '.' = true := rfl
    rw [List.replicate_succ, List.cons_append, leadingDots_cons, behindDots_cons, hlead, hdots,
      hcontent]
    exact ⟨rfl, rfl⟩

/-- **Behind a quote that was left open there is a name with an empty piece.** -/
theorem exists_emptySegment (h : Retained remembered) {q : Char} (hopen : LeavesOpen remembered q) :
    ∃ name address, ofName name remembered = .error (.emptySegment address) := by
  obtain ⟨last, hlast, hpass⟩ := hopen
  have hq : isQuote q = true := isQuote_of_pass? (by simp) hpass
  obtain ⟨segment, hsegment⟩ := h.read last (List.mem_of_getLast? hlast)
  obtain ⟨c, hc, key, hkey⟩ := Segment.exists_parseChars_closed hsegment hpass
  obtain ⟨init, hinit⟩ := List.getLast?_eq_some_iff.mp hlast
  have hclosed := h.closed
  rw [hinit, List.dropLast_concat] at hclosed
  -- the name has a dot for every segment
  let name := String.ofList (List.replicate remembered.length '.' ++ quotedDots q c)
  have hname : name.toList = List.replicate remembered.length '.' ++ quotedDots q c :=
    String.toList_ofList
  obtain ⟨hdots, hcontent⟩ := leadingDots_replicate hq [c, c, '.', '.', q] remembered.length
  rw [← quotedDots, ← hname] at hdots hcontent
  have hbehind : behindPasted name remembered remembered.length (quotedDots q c) =
      .ok (quotedDots q c) := expandRest_quotedDots name hq hc
  have hexpand : expandFrom name remembered 0 name.toList =
      .ok (pasted remembered ++ quotedDots q c) := by
    rw [expandFrom_eq name remembered (by omega), hdots, hcontent, Nat.zero_add, hbehind,
      List.drop_zero, List.take_length]
    rfl
  -- the address is cut behind the quote that was left open
  have hpieces : splitChars (pasted remembered ++ quotedDots q c) =
      (init.map String.toList ++ [last.toList ++ ['.', q, c, c]]) ++ [] :: [q] :: [] := by
    have htext : pasted remembered ++ quotedDots q c =
        pasted init ++ (last.toList ++ '.' :: quotedDots q c) := by
      simp [hinit, pasted]
    rw [htext, splitChars_pasted _ hclosed, splitChars, splitOutside_append _ hpass,
      splitOutside_quotedDots hq hc, foldr_consHead, List.append_assoc]
    rfl
  refine ⟨name, String.ofList (pasted remembered ++ quotedDots q c), ?_⟩
  rw [ofName, expand, hexpand]
  have hparse : parse (String.ofList (pasted remembered ++ quotedDots q c)) =
      .error (.emptySegment (String.ofList (pasted remembered ++ quotedDots q c))) := by
    rw [parse, String.toList_ofList, hpieces]
    refine parseSegments_of_empty _ _ _ ?_ ?_
    · refine List.forall_mem_append.mpr ⟨List.forall_mem_map.mpr fun s hs => ?_, by simp⟩
      exact h.nonempty s (hinit ▸ List.mem_append_left _ hs)
    · refine List.forall_mem_append.mpr ⟨List.forall_mem_map.mpr fun s hs => ?_,
        List.forall_mem_singleton.mpr ⟨_, hkey⟩⟩
      exact h.read s (hinit ▸ List.mem_append_left _ hs)
  simp only [Except.map, hparse]

end Retained

end ScopedConfig.Address
