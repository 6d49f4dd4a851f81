import Mathlib.Data.List.Basic
import ScopedConfig.Text.Line

/-!
# Lines that were written

Texts without line feeds and carriage returns are the lines of the text that has a line feed behind
each of them, and, if none of them is empty, of the text that has a line feed between them. Lines
have no line feed in them, and any texts without line feeds are the lines of some text.

Key definitions: `Text.IsLine`.
Key theorems: `Text.lines_terminated`, `Text.lines_intercalate`, `Text.lineFeed_not_mem`,
`Text.lines_append_feed`, `Text.lines_returned`.
-/

namespace ScopedConfig.Text

/-- Nothing in the text ends a line. -/
def IsLine (cs : List Char) : Prop :=
  ∀ c ∈ cs, c ≠ '\n' ∧ c ≠ '\r'

theorem isLine_of_forall {p : Char → Prop} {cs : List Char} (h : ∀ c ∈ cs, p c) (feed : ¬p '\n')
    (carriage : ¬p '\r') : IsLine cs := by
  intro c hc
  constructor
  · rintro rfl
    exact feed (h _ hc)
  · rintro rfl
    exact carriage (h _ hc)

theorem IsLine.append {cs ds : List Char} (hc : IsLine cs) (hd : IsLine ds) : IsLine (cs ++ ds) :=
  List.forall_mem_append.mpr ⟨hc, hd⟩

theorem lines_append (rest : List Char) : ∀ {cs : List Char}, IsLine cs →
    lines (cs ++ rest) = cs.foldr consHead (lines rest)
  | [], _ => rfl
  | c :: cs, h => by
    obtain ⟨hfeed, hreturn⟩ := h c (List.mem_cons_self ..)
    have ih := lines_append rest fun d hd => h d (List.mem_cons_of_mem c hd)
    rw [List.cons_append, lines, if_neg hfeed, if_neg fun hc => hreturn hc.1, ih, List.foldr_cons]

theorem lines_append_lineFeed (rest : List Char) {cs : List Char} (h : IsLine cs) :
    lines (cs ++ '\n' :: rest) = cs :: lines rest := by
  rw [lines_append _ h, lines, if_pos rfl, foldr_consHead, List.append_nil]

theorem lines_terminated : ∀ {ls : List (List Char)}, (∀ l ∈ ls, IsLine l) →
    lines (ls.flatMap (· ++ ['\n'])) = ls
  | [], _ => rfl
  | l :: ls, h => by
    have ih := lines_terminated fun m hm => h m (List.mem_cons_of_mem l hm)
    rw [List.flatMap_cons, List.append_assoc, List.singleton_append,
      lines_append_lineFeed _ (h l (List.mem_cons_self ..)), ih]

theorem lines_intercalate : ∀ {ls : List (List Char)}, (∀ l ∈ ls, IsLine l ∧ l ≠ []) →
    lines (['\n'].intercalate ls) = ls
  | [], _ => rfl
  | [l], h => by
    obtain ⟨hline, hne⟩ := h l (List.mem_cons_self ..)
    have hl := lines_append [] hline
    rw [List.append_nil] at hl
    rw [List.intercalate_singleton, hl, lines, foldr_consHead_nil hne]
  | l :: m :: ls, h => by
    have ih := lines_intercalate fun k hk => h k (List.mem_cons_of_mem l hk)
    rw [List.intercalate_cons_cons, List.append_assoc, List.singleton_append,
      lines_append_lineFeed _ (h l (List.mem_cons_self ..)).1, ih]

/-! ### The lines of any text -/

theorem lineFeed_not_mem : ∀ {cs line : List Char}, line ∈ lines cs → '\n' ∉ line
  | [], _, h => absurd h List.not_mem_nil
  | c :: cs, line, h => by
    have ih := fun l => @lineFeed_not_mem cs l
    rw [lines] at h
    by_cases hfeed : c = '\n'
    · rw [if_pos hfeed] at h
      rcases List.mem_cons.mp h with rfl | h
      · exact List.not_mem_nil
      · exact ih line h
    · rw [if_neg hfeed] at h
      by_cases hreturn : c = '\r' ∧ cs.head? = some '\n'
      · rw [if_pos hreturn] at h
        exact ih line h
      · rw [if_neg hreturn] at h
        cases hcs : lines cs with
        | nil =>
          rw [hcs, consHead, List.mem_singleton] at h
          rw [h, List.mem_singleton]
          exact Ne.symm hfeed
        | cons first rest =>
          rw [hcs] at ih
          rw [hcs, consHead] at h
          rcases List.mem_cons.mp h with rfl | h
          · rw [List.mem_cons, not_or]
            exact ⟨Ne.symm hfeed, ih first (List.mem_cons_self ..)⟩
          · exact ih line (List.mem_cons_of_mem first h)

theorem lines_append_returnFeed (rest : List Char) : ∀ {cs : List Char}, '\n' ∉ cs →
    lines (cs ++ '\r' :: '\n' :: rest) = cs :: lines rest
  | [], _ => by simp [lines]
  | c :: cs, h => by
    obtain ⟨hc, hcs⟩ := not_or.mp fun hm => h (List.mem_cons.mpr hm)
    have ih := lines_append_returnFeed rest hcs
    -- a carriage return in the line has no line feed behind it
    have hreturn : ¬(c = '\r' ∧ (cs ++ '\r' :: '\n' :: rest).head? = some '\n') := fun hr => by
      cases cs with
      | nil => exact absurd hr.2 (by simp)
      | cons d cs =>
        have hd : d = '\n' := Option.some.inj hr.2
        exact hcs (hd ▸ List.mem_cons_self ..)
    rw [List.cons_append, lines, if_neg (Ne.symm hc), if_neg hreturn, ih]
    rfl

/-- A text that no line feed ends is a line as it stands, carriage returns included. -/
theorem lines_of_lineFeed_not_mem : ∀ {cs : List Char}, '\n' ∉ cs → cs ≠ [] → lines cs = [cs]
  | [], _, hne => absurd rfl hne
  | c :: cs, h, _ => by
    obtain ⟨hc, hcs⟩ := not_or.mp fun hm => h (List.mem_cons.mpr hm)
    have hreturn : ¬(c = '\r' ∧ cs.head? = some '\n') := fun hr =>
      hcs (List.mem_of_mem_head? hr.2)
    rw [lines, if_neg (Ne.symm hc), if_neg hreturn]
    by_cases hnil : cs = []
    · rw [hnil]
      rfl
    · rw [lines_of_lineFeed_not_mem hcs hnil]
      rfl

/-- A line feed drops no carriage return if there is none in front of it. -/
theorem lines_append_feed (rest : List Char) : ∀ {cs : List Char}, '\n' ∉ cs →
    cs.getLast? ≠ some '\r' → lines (cs ++ '\n' :: rest) = cs :: lines rest
  | [], _, _ => by simp [lines]
  | c :: cs, h, hlast => by
    obtain ⟨hc, hcs⟩ := not_or.mp fun hm => h (List.mem_cons.mpr hm)
    have hlast' : cs.getLast? ≠ some '\r' := fun hr => by
      cases cs with
      | nil => exact absurd hr (by simp)
      | cons d ds => exact hlast (by rw [List.getLast?_cons_cons, hr])
    have hreturn : ¬(c = '\r' ∧ (cs ++ '\n' :: rest).head? = some '\n') := fun hr => by
      cases cs with
      | nil => exact hlast (by rw [hr.1]; rfl)
      | cons d ds =>
        have hd : d = '\n' := Option.some.inj hr.2
        exact hcs (hd ▸ List.mem_cons_self ..)
    rw [List.cons_append, lines, if_neg (Ne.symm hc), if_neg hreturn,
      lines_append_feed rest hcs hlast']
    rfl

/-- **Any texts without line feeds are lines**: those of the text that has a carriage return and a
line feed behind each. -/
theorem lines_returned : ∀ {ls : List (List Char)}, (∀ l ∈ ls, '\n' ∉ l) →
    lines (ls.flatMap (· ++ ['\r', '\n'])) = ls
  | [], _ => rfl
  | l :: ls, h => by
    obtain ⟨hl, hls⟩ := List.forall_mem_cons.mp h
    have ih := lines_returned hls
    have htext : (l :: ls).flatMap (· ++ ['\r', '\n']) =
        l ++ '\r' :: '\n' :: ls.flatMap (· ++ ['\r', '\n']) := by simp
    rw [htext, lines_append_returnFeed _ hl, ih]

end ScopedConfig.Text
