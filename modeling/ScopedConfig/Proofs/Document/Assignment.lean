import Mathlib.Data.Bool.AllAny
import Mathlib.Tactic.SplitIfs
import ScopedConfig.Proofs.Document.Statement

/-!
# Assignments read and written

An assignment is a line of four parts with blanks around them as one likes: the word, which a blank
follows, the target, an `=` and the literal. The target is trimmed and not empty, its quotes are
closed, and no other `=` stands in it outside quotes; the literal is any trimmed text, the empty one
included. A line with such parts is read as the assignment of this literal to this target, and no
other line is; so no line has two readings.

Key definitions: `Assigning`, `Assigning.IsTarget`, `Assigning.Assigns`.
Key theorems: `Assigning.assigns_iff`, `Assigning.parse_eq_ok_iff`, `Assigning.parse_exact`.
-/

namespace ScopedConfig

open Text

/-- The two statements that assign. -/
inductive Assigning
  | set
  | assignLocal

namespace Assigning

/-- The word that the lines begin with. -/
def word : Assigning → String
  | set => "set"
  | assignLocal => "let"

/-- The statement of a target and a literal. -/
def statement : Assigning → String → String → Statement
  | set => .set
  | assignLocal => .assignLocal

/-- A text that can be assigned to, as far as its line tells. -/
structure IsTarget (target : String) : Prop where
  nonempty : target ≠ ""
  trimmed : Trimmed target.toList
  /-- Every quote is closed, and every `=` stands in one. -/
  closed : Closed '=' target.toList

/-- The line is written for a target and a literal. -/
structure Assigns (kind : Assigning) (line target literal : String) : Prop where
  isTarget : IsTarget target
  trimmed : Trimmed literal.toList
  /-- Any number of blanks stand around the four parts, but one at least behind the word. -/
  written : ∃ front gap before behind back : List Char,
    (∀ b ∈ front ++ gap ++ before ++ behind ++ back, isBlank b = true) ∧ gap ≠ [] ∧
    line.toList = front ++ kind.word.toList ++
      (gap ++ target.toList ++ before ++ '=' :: (behind ++ literal.toList ++ back))

variable {kind kind' : Assigning} {line target literal target' literal' : String}

/-! ### Words and statements -/

theorem word_ne_nil (kind : Assigning) : kind.word.toList ≠ [] := by
  cases kind <;> decide

theorem isBlank_of_mem_word (kind : Assigning) : ∀ c ∈ kind.word.toList, isBlank c = false := by
  cases kind <;> exact List.all_iff_forall_prop.mp (by decide)

theorem head?_word (kind : Assigning) : kind.word.toList.head? ≠ some '#' := by
  cases kind <;> decide

theorem statement_inj (h : kind.statement target literal = kind'.statement target' literal') :
    kind = kind' ∧ target = target' ∧ literal = literal' := by
  cases kind <;> cases kind' <;> simp_all [statement]

theorem ofWords_word (kind : Assigning) (shown : String) (words : List Char) :
    Statement.ofWords shown kind.word words =
      (Statement.cutAssignment shown words).map fun (t, l) => kind.statement t l := by
  cases kind <;> rfl

theorem ofWords_eq_ok_iff {shown word : String} {words : List Char} :
    Statement.ofWords shown word words = .ok (kind.statement target literal) ↔
      word = kind.word ∧ Statement.cutAssignment shown words = .ok (target, literal) := by
  constructor
  · intro h
    by_cases hassigns : ∃ kind' : Assigning, word = kind'.word
    · obtain ⟨kind', rfl⟩ := hassigns
      rw [ofWords_word] at h
      obtain ⟨⟨t, l⟩, hcut, hstatement⟩ := exists_of_map h
      obtain ⟨rfl, rfl, rfl⟩ := statement_inj hstatement
      exact ⟨rfl, hcut⟩
    · -- no other word stands for an assignment
      have hset : word ≠ "set" := fun he => hassigns ⟨.set, he⟩
      have hlet : word ≠ "let" := fun he => hassigns ⟨.assignLocal, he⟩
      rw [Statement.ofWords, if_neg hset, if_neg hlet] at h
      split_ifs at h <;> cases kind <;> cases h
  · rintro ⟨rfl, hcut⟩
    rw [ofWords_word, hcut]
    rfl

/-! ### Lines -/

/-- **A line is written for a target and a literal if what is behind its word is cut into them.** -/
theorem assigns_iff (shown : String) : kind.Assigns line target literal ↔
    ∃ front tail, line.toList = front ++ kind.word.toList ++ tail ∧
      (∀ b ∈ front, isBlank b = true) ∧ (∀ c, tail.head? = some c → isBlank c = true) ∧
      Statement.cutAssignment shown (trim tail) = .ok (target, literal) := by
  have hmark : isBlank '=' = false := by decide
  simp only [Statement.cutAssignment_eq_ok_iff, exists_trim_eq_iff hmark]
  constructor
  · rintro ⟨htarget, hliteral, front, gap, before, behind, back, hblanks, hgap, hline⟩
    simp only [List.forall_mem_append] at hblanks
    obtain ⟨⟨⟨⟨hfront, hgap'⟩, hbefore⟩, hbehind⟩, hback⟩ := hblanks
    refine ⟨front, _, hline, hfront, ?_, htarget.nonempty, htarget.closed, _, _, rfl, ?_, ?_⟩
    · obtain ⟨b, gap, rfl⟩ := List.exists_cons_of_ne_nil hgap
      rintro c hc
      obtain rfl := Option.some.inj hc
      exact hgap' b (List.mem_cons_self ..)
    · rw [trim_blanks hgap' hbefore, htarget.trimmed.trim_eq]
    · rw [trim_blanks hbehind hback, hliteral.trim_eq]
  · rintro ⟨front, tail, hline, hfront, htail, hne, hclosed, left, right, rfl, hleft, hright⟩
    obtain ⟨htarget, gap, before, rfl, hgap, hbefore⟩ := trim_eq_iff.mp hleft
    obtain ⟨hliteral, behind, back, rfl, hbehind, hback⟩ := trim_eq_iff.mp hright
    refine ⟨⟨hne, htarget, hclosed⟩, hliteral, front, gap, before, behind, back, ?_, ?_, hline⟩
    · simp only [List.forall_mem_append]
      exact ⟨⟨⟨⟨hfront, hgap⟩, hbefore⟩, hbehind⟩, hback⟩
    · -- otherwise the target would begin with the blank behind the word
      rintro rfl
      obtain ⟨c, rest, hc⟩ := List.exists_cons_of_ne_nil (String.toList_eq_nil_iff.not.mpr hne)
      have hblank : isBlank c = true := htail c (by simp [hc])
      rw [htarget.head c (by rw [hc]; rfl)] at hblank
      exact absurd hblank (by decide)

/-- **The lines that are read as an assignment are those that are written for it.** -/
theorem parse_eq_ok_iff : Statement.parse line = .ok (some (kind.statement target literal)) ↔
    kind.Assigns line target literal := by
  constructor
  · intro h
    obtain ⟨hword, hcut⟩ := ofWords_eq_ok_iff.mp (Statement.ofWords_of_parseChars h)
    have hfirst : firstWord (trim line.toList) = kind.word.toList := by
      rw [← hword, String.toList_ofList]
    obtain ⟨front, tail, hline, hfront, htail, hwords⟩ :=
      (firstWord_trim_iff kind.word_ne_nil kind.isBlank_of_mem_word).mp ⟨hfirst, rfl⟩
    rw [← hwords] at hcut
    exact (assigns_iff _).mpr ⟨front, tail, hline, hfront, htail, hcut⟩
  · intro h
    obtain ⟨front, tail, hline, hfront, htail, hcut⟩ :=
      (assigns_iff (String.ofList (trim line.toList))).mp h
    have hread := Statement.parseChars_line kind.word_ne_nil kind.isBlank_of_mem_word
      kind.head?_word hfront htail
    rw [← hline, ofWords_eq_ok_iff.mpr ⟨String.ofList_toList, hcut⟩] at hread
    exact hread

/-- A line whose first word is the one of an assignment is refused if it is not written for one. -/
theorem parse_of_firstWord (h : firstWord (trim line.toList) = kind.word.toList) :
    (∃ target literal, Statement.parse line = .ok (some (kind.statement target literal))) ∨
      ∃ e, Statement.parse line = .error e ∧ e.code = .statementInvalid := by
  have hword : firstWord (trim line.toList) ≠ [] := h ▸ kind.word_ne_nil
  have hread := Statement.parseChars_eq hword (h ▸ kind.head?_word)
  rw [h, String.ofList_toList, ofWords_word] at hread
  cases hcut : Statement.cutAssignment (String.ofList (trim line.toList))
      (trim (afterFirstWord (trim line.toList))) with
  | ok parts =>
    rw [hcut] at hread
    exact .inl ⟨parts.1, parts.2, hread⟩
  | error e =>
    rw [hcut] at hread
    exact .inr ⟨e, hread, Statement.code_of_cutAssignment hcut⟩

theorem assigns_written (ht : IsTarget target) (hl : Trimmed literal.toList) :
    kind.Assigns (kind.word ++ " " ++ target ++ " = " ++ literal) target literal := by
  have hblanks : ∀ b ∈ [] ++ [' '] ++ [' '] ++ [' '] ++ [], isBlank b = true :=
    List.all_iff_forall_prop.mp (by decide)
  exact ⟨ht, hl, [], [' '], [' '], [' '], [], hblanks, by simp, by simp⟩

/-- **Assignments are split exactly.** A line is read as the assignment of a literal to a target if
and only if it is written for the two; a line with the word of an assignment is read as one or
refused; no line is written for two assignments; and what is written for a target and a literal in
the plainest way is read as this assignment. -/
theorem parse_exact (kind : Assigning) (line : String) :
    (∀ target literal, Statement.parse line = .ok (some (kind.statement target literal)) ↔
      kind.Assigns line target literal) ∧
    (firstWord (trim line.toList) = kind.word.toList →
      (∃ target literal, Statement.parse line = .ok (some (kind.statement target literal))) ∨
        ∃ e, Statement.parse line = .error e ∧ e.code = .statementInvalid) ∧
    (∀ kind' target literal target' literal', kind.Assigns line target literal →
      kind'.Assigns line target' literal' →
        kind = kind' ∧ target = target' ∧ literal = literal') ∧
    ∀ target literal, IsTarget target → Trimmed literal.toList →
      Statement.parse (kind.word ++ " " ++ target ++ " = " ++ literal) =
        .ok (some (kind.statement target literal)) := by
  refine ⟨fun _ _ => parse_eq_ok_iff, parse_of_firstWord, ?_,
    fun _ _ ht hl => parse_eq_ok_iff.mpr (assigns_written ht hl)⟩
  intro kind' target literal target' literal' h h'
  have hread := (parse_eq_ok_iff.mpr h).symm.trans (parse_eq_ok_iff.mpr h')
  exact statement_inj (Option.some.inj (Except.ok.inj hread))

/-- A target with an `=` and blanks in quotes, and a literal with another `=`. -/
theorem parse_exact_quoted : IsTarget "'a = b'.c" ∧ Trimmed "\"x = y\"".toList ∧
    Statement.parse "set 'a = b'.c = \"x = y\"" = .ok (some (.set "'a = b'.c" "\"x = y\"")) := by
  have ht : trim "'a = b'.c".toList = "'a = b'.c".toList := by decide
  have hl : trim "\"x = y\"".toList = "\"x = y\"".toList := by decide
  have htarget : IsTarget "'a = b'.c" :=
    ⟨by decide, (trim_eq_iff.mp ht).1, (closed_iff (by decide)).mpr (by decide)⟩
  have hliteral : Trimmed "\"x = y\"".toList := (trim_eq_iff.mp hl).1
  have hline : "set 'a = b'.c = \"x = y\"" =
      set.word ++ " " ++ "'a = b'.c" ++ " = " ++ "\"x = y\"" := by decide
  have hread := (parse_exact .set "").2.2.2 _ _ htarget hliteral
  rw [hline]
  exact ⟨htarget, hliteral, hread⟩

end Assigning

end ScopedConfig
