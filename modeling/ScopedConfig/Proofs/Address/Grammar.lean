import ScopedConfig.Proofs.Address.Splicing
import ScopedConfig.Proofs.Text.Mark

/-!
# What a name stands for

Without its spaces outside quotes, a name is a number of dots and a remainder. The scan of a name
reads both in one pass, with the spaces between them; what it gives is what the two say. Each dot
stands for one remembered segment, in order, and no remainder for one more. A name is refused if it
has more dots than segments are remembered, and, if it has not, for two dots in its remainder that
stand next to each other outside quotes.

Key definitions: `Address.compact`, `Address.dotCount`, `Address.remainder`, `Address.ending`.
Key theorems: `Address.expandRest_eq`, `Address.expand_eq_map_ending`, `Address.expand_grammar`.
-/

namespace ScopedConfig.Address

open Text

/-! ### Dots and remainder -/

/-- A name without its spaces outside quotes. -/
def compact (name : String) : List Char :=
  dropOutside ' ' none name.toList

/-- The number of dots that a name begins with, spaces aside. -/
def dotCount (name : String) : Nat :=
  ((compact name).takeWhile (· == '.')).length

/-- What stands behind the dots that a name begins with. -/
def remainder (name : String) : List Char :=
  (compact name).dropWhile (· == '.')

theorem dropOutside_eq_replicate : ∀ cs : List Char, dropOutside ' ' none cs =
    List.replicate (leadingDots cs) '.' ++ dropOutside ' ' none (behindDots cs)
  | [] => rfl
  | c :: cs => by
    have ih := dropOutside_eq_replicate cs
    rw [leadingDots_cons, behindDots_cons]
    by_cases hspace : c = ' '
    · subst hspace
      rw [dropOutside_mark, ih]
      rfl
    · by_cases hdot : c = '.'
      · subst hdot
        rw [dropOutside_of_ne hspace]
        exact congrArg ('.' :: ·) ih
      · have hlead : isLead c = false := by simp [isLead, hspace, hdot]
        rw [if_neg (by simp [hlead]), if_neg (by simp [hlead])]
        rfl

theorem dropOutside_behindDots (cs : List Char) :
    behindDots cs = [] ∧ dropOutside ' ' none (behindDots cs) = [] ∨
      ∃ c rest rest', behindDots cs = c :: rest ∧ c ≠ '.' ∧ c ≠ ' ' ∧
        dropOutside ' ' none (behindDots cs) = c :: rest' := by
  cases hcontent : behindDots cs with
  | nil => exact .inl ⟨rfl, rfl⟩
  | cons c rest =>
    have hhead := List.head?_dropWhile_not isLead cs
    rw [← behindDots, hcontent] at hhead
    obtain ⟨hspace, hdot⟩ : c ≠ ' ' ∧ c ≠ '.' := by simpa [isLead] using hhead
    exact .inr ⟨c, rest, _, rfl, hdot, hspace, dropOutside_of_ne hspace rest⟩

theorem dotCount_remainder_eq (name : String) : dotCount name = leadingDots name.toList ∧
    remainder name = dropOutside ' ' none (behindDots name.toList) := by
  have hdots : ∀ c ∈ List.replicate (leadingDots name.toList) '.', (c == '.') = true := by simp
  unfold dotCount remainder compact
  rw [dropOutside_eq_replicate]
  rcases dropOutside_behindDots name.toList with ⟨-, hnil⟩ | ⟨c, -, rest, -, hdot, -, hcons⟩
  · rw [hnil, List.append_nil, List.takeWhile_eq_self_iff.mpr hdots,
      List.dropWhile_eq_nil_iff.mpr hdots, List.length_replicate]
    exact ⟨rfl, rfl⟩
  · have hc : (c == '.') = false := by simpa using hdot
    rw [hcons, Segment.takeWhile_append_cons hdots hc, Segment.dropWhile_append_cons hdots hc,
      List.length_replicate]
    exact ⟨rfl, rfl⟩

/-! ### The remainder -/

theorem map_ite_error {α β : Type} (p : Prop) [Decidable p] (e : Fault) (f : α → β) (a : α) :
    (if p then Except.error e else .ok a).map f = if p then .error e else .ok (f a) := by
  split <;> rfl

/-- **The rest of a name is refused for two dots in a row, and loses its spaces otherwise.** A dot
right in front of it is the first of two if it begins with another. -/
theorem expandRest_eq (name : String) : ∀ {q : Option Char} {afterDot : Bool} (cs : List Char),
    (afterDot = true → q = none) → expandRest name q afterDot cs =
      if (afterDot = true ∧ (dropOutside ' ' q cs).head? = some '.') ∨
          Doubled '.' q (dropOutside ' ' q cs)
        then .error (.misplacedDot name) else .ok (dropOutside ' ' q cs)
  | q, afterDot, [], _ => by
    have hempty : dropOutside ' ' q [] = [] := rfl
    simp [expandRest, hempty, not_doubled_nil]
  | some q, afterDot, c :: cs, hafter => by
    obtain rfl : afterDot = false := Bool.eq_false_iff.mpr fun h => by simpa using hafter h
    have ih := @expandRest_eq name (quoteAfter (some q) c) false cs (by simp)
    rw [expandRest, ih, map_ite_error, dropOutside_quoted]
    simp [doubled_cons_iff]
  | none, afterDot, c :: cs, _ => by
    rw [expandRest]
    by_cases hspace : c = ' '
    · rw [if_pos hspace, hspace, dropOutside_mark, expandRest_eq name cs fun _ => rfl]
    · rw [if_neg hspace, dropOutside_of_ne hspace]
      by_cases hdot : c = '.'
      · -- a dot is refused behind another, and what is behind it must not begin with one
        have ih := @expandRest_eq name none true cs fun _ => rfl
        have hquote : quoteAfter none '.' = none := rfl
        rw [if_pos hdot, ih, map_ite_error, hdot, hquote]
        cases afterDot <;> simp [doubled_cons_iff, hquote]
      · have ih := @expandRest_eq name (quoteAfter none c) false cs (by simp)
        rw [if_neg hdot, ih, map_ite_error]
        simp [doubled_cons_iff, hdot]

/-- What follows the segments that the dots of a name stand for. -/
def ending (name : String) (remembered : List String) : Except Fault (List Char) :=
  if remainder name = [] then slot name remembered (dotCount name)
  else if Doubled '.' none (remainder name) then .error (.misplacedDot name)
  else .ok (remainder name)

theorem behindPasted_eq_ending (name : String) (remembered : List String) :
    behindPasted name remembered (leadingDots name.toList) (behindDots name.toList) =
      ending name remembered := by
  obtain ⟨hcount, hrest⟩ := dotCount_remainder_eq name
  rw [ending, hcount, hrest]
  rcases dropOutside_behindDots name.toList with
    ⟨hnil, hdrop⟩ | ⟨c, rest, rest', hcons, -, -, hdrop⟩
  · rw [hdrop, if_pos rfl, hnil, behindPasted]
  · have hne : dropOutside ' ' none (behindDots name.toList) ≠ [] := by simp [hdrop]
    rw [if_neg hne, hcons, behindPasted, expandRest_eq name _ (by simp)]
    simp

/-! ### Names -/

variable {name : String} {remembered : List String}

/-- **A name is its dots and what follows them.** -/
theorem expand_eq_map_ending (h : dotCount name ≤ remembered.length) :
    expand name remembered = (ending name remembered).map fun tail =>
      String.ofList (pasted (remembered.take (dotCount name)) ++ tail) := by
  obtain ⟨hcount, -⟩ := dotCount_remainder_eq name
  rw [hcount] at h
  rw [expand, expandFrom_eq name remembered (by omega), Nat.zero_add, behindPasted_eq_ending,
    map_map, List.drop_zero, hcount]

theorem expand_of_lt_dotCount (h : remembered.length < dotCount name) :
    expand name remembered = .error (.tooManyDots name remembered.length) := by
  rw [(dotCount_remainder_eq name).1, ← Nat.zero_add (leadingDots _)] at h
  rw [expand, expandFrom_of_lt (Nat.zero_le _) h]
  rfl

theorem ofList_pasted (segments : List String) :
    String.ofList (pasted segments) = String.join (segments.map (· ++ ".")) := by
  apply String.toList_injective
  rw [String.toList_ofList, String.toList_join, pasted, List.flatMap_map, List.flatMap_map]
  simp

theorem pasted_append : ∀ (segments : List String) (s : String),
    pasted segments ++ s.toList = ['.'].intercalate ((segments ++ [s]).map String.toList)
  | [], s => by simp [pasted]
  | t :: segments, s => by
    have ih := pasted_append segments s
    obtain ⟨next, rest, hnext⟩ := List.exists_cons_of_ne_nil (l := segments ++ [s]) (by simp)
    rw [hnext, List.map_cons] at ih
    rw [List.cons_append, hnext, List.map_cons, List.map_cons, List.intercalate_cons_cons, ← ih]
    simp [pasted]

/-- **A name stands for what its dots and its remainder say.** Dots alone stand for one remembered
segment more than there are dots, with dots between them; in front of a remainder each dot stands
for one remembered segment with a dot behind it. -/
theorem expand_grammar (name : String) (remembered : List String) : expand name remembered =
    if remainder name = [] then
      if dotCount name < remembered.length then
        .ok (".".intercalate (remembered.take (dotCount name + 1)))
      else .error (.tooManyDots name remembered.length)
    else if remembered.length < dotCount name then .error (.tooManyDots name remembered.length)
    else if Doubled '.' none (remainder name) then .error (.misplacedDot name)
    else .ok (String.join ((remembered.take (dotCount name)).map (· ++ ".")) ++
      String.ofList (remainder name)) := by
  by_cases hdots : remembered.length < dotCount name
  · rw [expand_of_lt_dotCount hdots, if_neg (Nat.not_lt.mpr (Nat.le_of_lt hdots)), if_pos hdots,
      ite_self]
  · rw [expand_eq_map_ending (Nat.not_lt.mp hdots), ending, if_neg hdots]
    by_cases hempty : remainder name = []
    · rw [if_pos hempty, if_pos hempty, slot]
      by_cases hslot : dotCount name < remembered.length
      · rw [if_pos hslot, List.getElem?_eq_getElem hslot, List.take_succ_eq_append_getElem hslot]
        refine congrArg Except.ok (String.toList_injective ?_)
        rw [String.toList_ofList, pasted_append, String.toList_intercalate]
        rfl
      · rw [if_neg hslot, List.getElem?_eq_none (Nat.not_lt.mp hslot)]
        rfl
    · rw [if_neg hempty, if_neg hempty, map_ite_error, String.ofList_append, ofList_pasted]

/-- The dots may stand apart, and what a quote holds is content. -/
example : expand ".. .c" ["x", "y", "z"] = .ok "x.y.z.c" ∧
    expand ".'a . .b'." ["x"] = .ok "x.'a . .b'." ∧
      expand "..a. .b" ["x", "y"] = .error (.misplacedDot "..a. .b") := by
  decide

/-- **What an accepted name stands for**: the segments of its dots, and behind them the next segment
or the remainder. -/
theorem exists_of_expand {text : String} (h : expand name remembered = .ok text) :
    dotCount name ≤ remembered.length ∧ ∃ tail, ending name remembered = .ok tail ∧
      text.toList = pasted (remembered.take (dotCount name)) ++ tail := by
  have hle : dotCount name ≤ remembered.length := Nat.not_lt.mp fun hlt => by
    rw [expand_of_lt_dotCount hlt] at h
    simp at h
  rw [expand_eq_map_ending hle] at h
  obtain ⟨tail, htail, rfl⟩ := exists_of_map h
  exact ⟨hle, tail, htail, String.toList_ofList⟩

theorem ending_eq_ok {tail : List Char} (h : ending name remembered = .ok tail) :
    (remainder name = [] ∧ ∃ s, remembered[dotCount name]? = some s ∧ tail = s.toList) ∨
      remainder name ≠ [] ∧ ¬Doubled '.' none (remainder name) ∧ tail = remainder name := by
  rw [ending, slot] at h
  by_cases hempty : remainder name = []
  · rw [if_pos hempty] at h
    split at h
    · rename_i s hs
      exact .inl ⟨hempty, s, hs, (Except.ok.inj h).symm⟩
    · simp at h
  · rw [if_neg hempty] at h
    split at h
    · simp at h
    · rename_i hsingle
      exact .inr ⟨hempty, hsingle, (Except.ok.inj h).symm⟩

end ScopedConfig.Address
