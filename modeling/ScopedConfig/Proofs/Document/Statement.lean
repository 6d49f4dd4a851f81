import ScopedConfig.Document.Statement
import ScopedConfig.Proofs.Address.Faults
import ScopedConfig.Proofs.Text.Quote

/-!
# Lines read

A line is read as the statement that its first word stands for, about the trimmed text behind this
word. An assignment is cut at the first `=` outside quotes: the target in front of it has all its
quotes closed and every other `=` in one of them, and whatever stands behind it is the literal.

Key theorems: `Statement.parseChars_line`, `Statement.cutAssignment_eq_ok_iff`.
-/

namespace ScopedConfig

open Text

namespace Statement

variable {line : List Char}

/-- A line whose first word does not begin a comment is read as this word and what is behind it. -/
theorem parseChars_eq (hword : firstWord (trim line) ≠ [])
    (hcomment : (firstWord (trim line)).head? ≠ some '#') :
    parseChars line = (ofWords (String.ofList (trim line)) (String.ofList (firstWord (trim line)))
      (trim (afterFirstWord (trim line)))).map some := by
  have hline := firstWord_append (trim line)
  have hne : trim line ≠ [] := fun hnil => by
    rw [hnil] at hword
    exact hword rfl
  have hhead : (trim line).head? ≠ some '#' := by
    rwa [← hline, List.head?_append_of_ne_nil _ hword]
  simp only [parseChars, hne, hhead, false_or, if_false]

/-- **A line is a word and what it is about**, whatever blanks stand around the two. -/
theorem parseChars_line {front word tail : List Char} (hword : word ≠ [])
    (hletters : ∀ c ∈ word, isBlank c = false) (hcomment : word.head? ≠ some '#')
    (hfront : ∀ b ∈ front, isBlank b = true)
    (htail : ∀ c, tail.head? = some c → isBlank c = true) :
    parseChars (front ++ word ++ tail) =
      (ofWords (String.ofList (trim (front ++ word ++ tail))) (String.ofList word)
        (trim tail)).map some := by
  obtain ⟨hfirst, hwords⟩ :=
    (firstWord_trim_iff hword hletters).mpr ⟨front, tail, rfl, hfront, htail, rfl⟩
  rw [parseChars_eq (by rwa [hfirst]) (by rwa [hfirst]), hfirst, hwords]

theorem ofWords_of_parseChars {statement : Statement} (h : parseChars line = .ok (some statement)) :
    ofWords (String.ofList (trim line)) (String.ofList (firstWord (trim line)))
      (trim (afterFirstWord (trim line))) = .ok statement := by
  unfold parseChars at h
  simp only at h
  split at h
  · simp at h
  · obtain ⟨read, hread, hsome⟩ := exists_of_map h
    rw [hread, Option.some.inj hsome]

/-- **An assignment is cut behind its target**, which is the part in which no quote stays open and
no `=` is outside quotes. -/
theorem cutAssignment_eq_ok_iff {shown target literal : String} {words : List Char} :
    cutAssignment shown words = .ok (target, literal) ↔
      target ≠ "" ∧ Closed '=' target.toList ∧ ∃ left right, words = left ++ '=' :: right ∧
        trim left = target.toList ∧ trim right = literal.toList := by
  have hclosed : ∀ left, trim left = target.toList →
      (Closed '=' target.toList ↔ pass? '=' none left = some none) := fun left htarget => by
    rw [← htarget, closed_iff (by decide), pass?_trim (by decide)]
  constructor
  · intro h
    unfold cutAssignment at h
    split at h
    · simp at h
    · rename_i left right hcut
      obtain ⟨rfl, hpass⟩ := cutOutside?_eq_some_iff.mp hcut
      simp only at h
      split at h
      · simp at h
      · rename_i hne
        obtain ⟨rfl, rfl⟩ := Prod.mk.inj (Except.ok.inj h)
        have htarget : trim left = (String.ofList (trim left)).toList := String.toList_ofList.symm
        refine ⟨fun hnil => hne ?_, (hclosed left htarget).mpr hpass, left, right, rfl, htarget,
          String.toList_ofList.symm⟩
        rw [htarget, hnil, String.toList_empty]
  · rintro ⟨hne, htarget, left, right, rfl, hleft, hright⟩
    have hcut := cutOutside?_append right ((hclosed left hleft).mp htarget)
    have hnil : target.toList ≠ [] := String.toList_eq_nil_iff.not.mpr hne
    simp only [cutAssignment, hcut, hleft, hright, hnil, if_false, String.ofList_toList]

theorem code_of_cutAssignment {shown : String} {words : List Char} {e : Fault}
    (h : cutAssignment shown words = .error e) : e.code = .statementInvalid := by
  unfold cutAssignment at h
  split at h
  · rw [← Except.error.inj h]
    rfl
  · simp only at h
    split at h
    · rw [← Except.error.inj h]
      rfl
    · simp at h

end Statement

end ScopedConfig
