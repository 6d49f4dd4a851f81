import Mathlib.Data.List.DropRight
import ScopedConfig.Text.Blank

/-!
# Trimmed texts

A text whose first and last characters are not blank is what trimming leaves of it with any blanks
around it, and trimming leaves nothing else. The first word of a line ends at the first blank behind
the blanks in front.

Key definitions: `Text.Trimmed`.
Key theorems: `Text.trimEnd_eq_rdropWhile`, `Text.trim_blanks`, `Text.trim_eq_iff`,
`Text.firstWord_trim_iff`.
-/

namespace ScopedConfig.Text

/-- Neither end of the text is blank. -/
structure Trimmed (cs : List Char) : Prop where
  head : ∀ c, cs.head? = some c → isBlank c = false
  last : ∀ c, cs.getLast? = some c → isBlank c = false

theorem trimEnd_eq_rdropWhile : ∀ cs : List Char, trimEnd cs = cs.rdropWhile isBlank
  | [] => rfl
  | c :: cs => by
    have ih := trimEnd_eq_rdropWhile cs
    rw [trimEnd, ih, List.rdropWhile, List.rdropWhile, List.reverse_cons, List.dropWhile_append]
    cases h : cs.reverse.dropWhile isBlank with
    | nil => cases hc : isBlank c <;> simp [hc]
    | cons d ds =>
      have hne : (d :: ds).isEmpty = false := rfl
      simp only [hne, Bool.false_eq_true, if_false, List.reverse_append, List.reverse_singleton]
      cases hr : (d :: ds).reverse with
      | nil => simp at hr
      | cons e es => rfl

theorem trimStart_append {bs : List Char} (h : ∀ b ∈ bs, isBlank b = true) (cs : List Char) :
    trimStart (bs ++ cs) = trimStart cs :=
  List.dropWhile_append_of_pos h

theorem trimEnd_append {bs : List Char} (h : ∀ b ∈ bs, isBlank b = true) (cs : List Char) :
    trimEnd (cs ++ bs) = trimEnd cs := by
  rw [trimEnd_eq_rdropWhile, trimEnd_eq_rdropWhile, List.rdropWhile, List.rdropWhile,
    List.reverse_append, List.dropWhile_append_of_pos fun b hb => h b (List.mem_reverse.mp hb)]

namespace Trimmed

variable {cs ds : List Char}

theorem trimStart_eq (h : Trimmed cs) : trimStart cs = cs := by
  cases cs with
  | nil => rfl
  | cons c cs => exact List.dropWhile_cons_of_neg (by simp [h.head c rfl])

theorem trimEnd_eq (h : Trimmed cs) : trimEnd cs = cs := by
  rw [trimEnd_eq_rdropWhile, List.rdropWhile_eq_self_iff]
  intro hne
  rw [h.last _ (List.getLast?_eq_some_getLast hne)]
  decide

theorem of_forall (h : ∀ c ∈ cs, isBlank c = false) : Trimmed cs :=
  ⟨fun c hc => h c (List.mem_of_mem_head? hc), fun c hc => h c (List.mem_of_getLast? hc)⟩

theorem enclosed {left right : Char} (hl : isBlank left = false) (hr : isBlank right = false)
    (inner : List Char) : Trimmed (left :: inner ++ [right]) := by
  refine ⟨fun c hc => ?_, fun c hc => ?_⟩
  · obtain rfl := Option.some.inj hc
    exact hl
  · rw [List.getLast?_concat] at hc
    obtain rfl := Option.some.inj hc
    exact hr

theorem trim_eq (h : Trimmed cs) : trim cs = cs := by
  rw [trim, h.trimStart_eq, h.trimEnd_eq]

end Trimmed

theorem trim_blanks {fs bs : List Char} (hf : ∀ b ∈ fs, isBlank b = true)
    (hb : ∀ b ∈ bs, isBlank b = true) (cs : List Char) : trim (fs ++ cs ++ bs) = trim cs := by
  rw [trim, trim, List.append_assoc, trimStart_append hf, trimStart, List.dropWhile_append]
  split
  · rename_i hnil
    rw [List.isEmpty_iff] at hnil
    -- nothing is left in front, and what is behind is blank as well
    rw [List.dropWhile_eq_nil_iff.mpr hb, trimStart, hnil]
  · exact trimEnd_append hb _

theorem trim_blank_cons {b : Char} (hb : isBlank b = true) (cs : List Char) :
    trim (b :: cs) = trim cs := by
  have h := trim_blanks (List.forall_mem_singleton.mpr hb) (List.forall_mem_nil _) cs
  rwa [List.append_nil, List.singleton_append] at h

/-! ### What trimming leaves -/

/-- **A text is what trimming leaves of it, between blanks.** -/
theorem exists_eq_trim (cs : List Char) : ∃ fs bs, cs = fs ++ trim cs ++ bs ∧
    (∀ b ∈ fs, isBlank b = true) ∧ ∀ b ∈ bs, isBlank b = true := by
  refine ⟨cs.takeWhile isBlank, (trimStart cs).rtakeWhile isBlank, ?_, ?_, ?_⟩
  · rw [trim, trimEnd_eq_rdropWhile, List.append_assoc, List.rdropWhile_append_rtakeWhile,
      trimStart, List.takeWhile_append_dropWhile]
  · exact fun b hb => List.mem_takeWhile_imp hb
  · exact fun b hb => List.mem_rtakeWhile_imp hb

theorem mem_of_mem_trim {c : Char} {cs : List Char} (h : c ∈ trim cs) : c ∈ cs := by
  obtain ⟨fs, bs, hcs, -, -⟩ := exists_eq_trim cs
  rw [hcs]
  exact List.mem_append_left bs (List.mem_append_right fs h)

theorem isBlank_of_trim_eq_nil {cs : List Char} (h : trim cs = []) {c : Char} (hc : c ∈ cs) :
    isBlank c = true := by
  obtain ⟨fs, bs, hcs, hf, hb⟩ := exists_eq_trim cs
  rw [hcs, h, List.append_nil] at hc
  exact (List.mem_append.mp hc).elim (hf c) (hb c)

theorem count_trim {d : Char} (hd : isBlank d = false) (cs : List Char) :
    (trim cs).count d = cs.count d := by
  obtain ⟨fs, bs, hcs, hf, hb⟩ := exists_eq_trim cs
  have hnone : ∀ {ds : List Char}, (∀ b ∈ ds, isBlank b = true) → ds.count d = 0 := fun h =>
    List.count_eq_zero.mpr fun hm => by simp [h d hm] at hd
  conv_rhs => rw [hcs]
  rw [List.count_append, List.count_append, hnone hf, hnone hb, Nat.zero_add, Nat.add_zero]

theorem head?_of_trimEnd {c : Char} {cs : List Char} (h : (trimEnd cs).head? = some c) :
    cs.head? = some c := by
  obtain ⟨bs, hbs⟩ := List.rdropWhile_prefix isBlank cs
  rw [← hbs, List.head?_append, ← trimEnd_eq_rdropWhile, h, Option.some_or]

theorem trimmed_trim (cs : List Char) : Trimmed (trim cs) := by
  refine ⟨fun c hc => ?_, fun c hc => ?_⟩
  · have hhead : (trimStart cs).head? = some c := head?_of_trimEnd hc
    have hne : trimStart cs ≠ [] := fun hnil => by simp [hnil] at hhead
    obtain rfl := Option.some.inj ((List.head?_eq_some_head hne).symm.trans hhead)
    exact List.head_dropWhile_not isBlank hne
  · rw [trim, trimEnd_eq_rdropWhile] at hc
    have hne : (trimStart cs).rdropWhile isBlank ≠ [] := fun hnil => by simp [hnil] at hc
    obtain rfl := Option.some.inj ((List.getLast?_eq_some_getLast hne).symm.trans hc)
    exact Bool.eq_false_iff.mpr (List.rdropWhile_last_not isBlank _ hne)

/-- **Trimming leaves the trimmed text that stands between blanks.** -/
theorem trim_eq_iff {cs ds : List Char} : trim cs = ds ↔ Trimmed ds ∧
    ∃ fs bs, cs = fs ++ ds ++ bs ∧ (∀ b ∈ fs, isBlank b = true) ∧ ∀ b ∈ bs, isBlank b = true := by
  constructor
  · rintro rfl
    exact ⟨trimmed_trim cs, exists_eq_trim cs⟩
  · rintro ⟨h, fs, bs, rfl, hf, hb⟩
    rw [trim_blanks hf hb, h.trim_eq]

/-- Behind a character that is not blank the end of a text is trimmed on its own. -/
theorem trimEnd_append_cons {m : Char} (hm : isBlank m = false) (ds : List Char) :
    ∀ cs : List Char, trimEnd (cs ++ m :: ds) = cs ++ m :: trimEnd ds
  | [] => by
    rw [List.nil_append, trimEnd, List.nil_append]
    split
    · rename_i hnil
      rw [hnil, if_neg (by simp [hm])]
    · rename_i hcons
      rw [hcons]
  | c :: cs => by
    rw [List.cons_append, trimEnd, trimEnd_append_cons hm ds cs]
    cases cs <;> rfl

theorem trimStart_append_cons {m : Char} (hm : isBlank m = false) (cs ds : List Char) :
    trimStart (cs ++ m :: ds) = trimStart cs ++ m :: ds := by
  rw [trimStart, List.dropWhile_append]
  split
  · rename_i hnil
    rw [List.isEmpty_iff] at hnil
    rw [trimStart, hnil, List.dropWhile_cons_of_neg (by simp [hm]), List.nil_append]
  · rfl

theorem trim_trimEnd (cs : List Char) : trim (trimEnd cs) = trim cs := by
  have hb : ∀ b ∈ cs.rtakeWhile isBlank, isBlank b = true := fun b => List.mem_rtakeWhile_imp
  have h := trim_blanks (List.forall_mem_nil _) hb (cs.rdropWhile isBlank)
  rw [List.nil_append, List.rdropWhile_append_rtakeWhile] at h
  rw [trimEnd_eq_rdropWhile, h]

/-- **A trimmed text has a character that is not blank between the same sides**, blanks around them
aside. -/
theorem exists_trim_eq_iff {m : Char} (hm : isBlank m = false) {cs ds es : List Char} :
    (∃ left right, trim cs = left ++ m :: right ∧ trim left = ds ∧ trim right = es) ↔
      ∃ left right, cs = left ++ m :: right ∧ trim left = ds ∧ trim right = es := by
  constructor
  · rintro ⟨left, right, hcs, rfl, rfl⟩
    obtain ⟨fs, bs, htrim, hf, hb⟩ := exists_eq_trim cs
    refine ⟨fs ++ left, right ++ bs, ?_, ?_, ?_⟩
    · rw [htrim, hcs, List.append_assoc, List.append_assoc, List.append_assoc, List.cons_append]
    · have h := trim_blanks hf (List.forall_mem_nil _) left
      rwa [List.append_nil] at h
    · exact trim_blanks (List.forall_mem_nil _) hb right
  · rintro ⟨left, right, rfl, rfl, rfl⟩
    refine ⟨trimStart left, trimEnd right, ?_, ?_, trim_trimEnd right⟩
    · rw [trim, trimStart_append_cons hm, trimEnd_append_cons hm]
    · rw [trim, trim, trimStart, trimStart, List.dropWhile_idempotent]

theorem trim_append {word : List Char} (h : Trimmed word) (hne : word ≠ []) {front : List Char}
    (hfront : ∀ b ∈ front, isBlank b = true) (tail : List Char) :
    trim (front ++ word ++ tail) = word ++ trimEnd tail := by
  obtain ⟨first, rest, hfirst⟩ := List.exists_cons_of_ne_nil hne
  have hstart : trimStart (word ++ tail) = word ++ tail := by
    rw [hfirst]
    exact List.dropWhile_cons_of_neg (by simp [h.head first (hfirst ▸ rfl)])
  obtain ⟨init, last, hlast⟩ := List.eq_nil_or_concat word |>.resolve_left hne
  have hblank : isBlank last = false := h.last last (by simp [hlast])
  rw [trim, List.append_assoc, trimStart_append hfront, hstart, hlast, List.concat_eq_append,
    List.append_assoc, List.singleton_append, trimEnd_append_cons hblank, List.append_assoc,
    List.singleton_append]

/-! ### The first word -/

/-- The first word ends where a blank follows, or nothing. -/
theorem firstWord_append_tail {word tail : List Char} (h : ∀ c ∈ word, isBlank c = false)
    (htail : ∀ c, tail.head? = some c → isBlank c = true) :
    firstWord (word ++ tail) = word ∧ afterFirstWord (word ++ tail) = tail := by
  have hword : ∀ c ∈ word, (!isBlank c) = true := fun c hc => by rw [h c hc, Bool.not_false]
  rw [firstWord, afterFirstWord, List.takeWhile_append_of_pos hword,
    List.dropWhile_append_of_pos hword]
  cases tail with
  | nil => exact ⟨List.append_nil word, rfl⟩
  | cons b tail =>
    have hb : isBlank b = true := htail b rfl
    simp [hb]

theorem isBlank_of_head?_afterFirstWord {c : Char} {cs : List Char}
    (h : (afterFirstWord cs).head? = some c) : isBlank c = true := by
  have hne : afterFirstWord cs ≠ [] := fun hnil => by simp [hnil] at h
  obtain rfl := Option.some.inj ((List.head?_eq_some_head hne).symm.trans h)
  rw [← Bool.not_eq_false']
  exact List.head_dropWhile_not (!isBlank ·) hne

/-- **A line is its first word and what is behind it, between blanks.** -/
theorem firstWord_trim_iff {line word words : List Char} (hword : word ≠ [])
    (hletters : ∀ c ∈ word, isBlank c = false) :
    firstWord (trim line) = word ∧ trim (afterFirstWord (trim line)) = words ↔
      ∃ front tail, line = front ++ word ++ tail ∧ (∀ b ∈ front, isBlank b = true) ∧
        (∀ c, tail.head? = some c → isBlank c = true) ∧ trim tail = words := by
  constructor
  · rintro ⟨rfl, rfl⟩
    obtain ⟨fs, bs, hline, hf, hb⟩ := exists_eq_trim line
    refine ⟨fs, afterFirstWord (trim line) ++ bs, ?_, hf, fun c hc => ?_, ?_⟩
    · rw [← List.append_assoc, List.append_assoc fs, firstWord_append, ← hline]
    · rw [List.head?_append, Option.or_eq_some_iff] at hc
      rcases hc with hc | ⟨-, hc⟩
      · exact isBlank_of_head?_afterFirstWord hc
      · exact hb c (List.mem_of_mem_head? hc)
    · exact trim_blanks (List.forall_mem_nil _) hb _
  · rintro ⟨front, tail, rfl, hfront, htail, rfl⟩
    have hline := trim_append (.of_forall hletters) hword hfront tail
    have htail' : ∀ c, (trimEnd tail).head? = some c → isBlank c = true :=
      fun c hc => htail c (head?_of_trimEnd hc)
    obtain ⟨hfirst, hbehind⟩ := firstWord_append_tail hletters htail'
    rw [hline, hbehind]
    exact ⟨hfirst, trim_trimEnd tail⟩

end ScopedConfig.Text
