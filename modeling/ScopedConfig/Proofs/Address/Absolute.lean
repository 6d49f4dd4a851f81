import ScopedConfig.Address.Shorthand

/-!
# Absolute names

A name is absolute if it begins, spaces aside, with a character that is no dot. No remembered
segment is put into such a name, so it stands for the same address whatever is remembered. Every
other name takes at least one remembered segment, so it stands for none when nothing is remembered.

Key definitions: `Address.IsAbsolute`.
Key theorems: `Address.ofName_of_isAbsolute`, `Address.expand_nil_of_not_isAbsolute`.
-/

namespace ScopedConfig.Address

/-- The name begins with something other than a dot, spaces aside. -/
def IsAbsolute (name : String) : Prop :=
  ∃ c, (name.toList.dropWhile (· == ' ')).head? = some c ∧ c ≠ '.'

instance (name : String) : Decidable (IsAbsolute name) :=
  match h : (name.toList.dropWhile (· == ' ')).head? with
  | none => isFalse fun ⟨_, hc, _⟩ => absurd (h.symm.trans hc) (by simp)
  | some c =>
    if hc : c = '.' then
      isFalse fun ⟨_, hd, hne⟩ => hne ((Option.some.inj (h.symm.trans hd)).symm.trans hc)
    else isTrue ⟨c, h, hc⟩

variable {name : String}

theorem expandFrom_dropWhile (remembered : List String) (dots : Nat) : ∀ cs : List Char,
    expandFrom name remembered dots (cs.dropWhile (· == ' ')) = expandFrom name remembered dots cs
  | [] => rfl
  | c :: cs => by
    by_cases hc : c = ' '
    · subst hc
      have ih := expandFrom_dropWhile remembered dots cs
      rw [List.dropWhile_cons_of_pos (by rfl), ih, expandFrom, if_pos rfl]
    · rw [List.dropWhile_cons_of_neg (by simpa using hc)]

theorem ne_space_of_head? {cs : List Char} {c : Char}
    (h : (cs.dropWhile (· == ' ')).head? = some c) : c ≠ ' ' := by
  have hc := List.head?_dropWhile_not (· == ' ') cs
  rw [h] at hc
  simpa using hc

/-- **No remembered segment is put into an absolute name.** -/
theorem expandFrom_of_isAbsolute (h : IsAbsolute name) (remembered : List String) :
    expandFrom name remembered 0 name.toList =
      expandRest name none false (name.toList.dropWhile (· == ' ')) := by
  obtain ⟨c, hc, hdot⟩ := h
  have hspace := ne_space_of_head? hc
  rw [← expandFrom_dropWhile]
  obtain ⟨cs, hcs⟩ := List.head?_eq_some_iff.mp hc
  rw [hcs, expandFrom, if_neg hspace, if_neg hdot]

theorem expand_of_isAbsolute (h : IsAbsolute name) (remembered remembered' : List String) :
    expand name remembered = expand name remembered' := by
  rw [expand, expandFrom_of_isAbsolute h, expand, expandFrom_of_isAbsolute h]

/-- An absolute name stands for the same address whatever is remembered. -/
theorem ofName_of_isAbsolute (h : IsAbsolute name) (remembered remembered' : List String) :
    ofName name remembered = ofName name remembered' := by
  rw [ofName, expand_of_isAbsolute h remembered remembered', ofName]

/-- **A name that is not absolute takes a segment**, which is not there when none is remembered. -/
theorem expand_nil_of_not_isAbsolute (h : ¬IsAbsolute name) :
    expand name [] = .error (.tooManyDots name 0) := by
  rw [expand, ← expandFrom_dropWhile]
  cases hcs : name.toList.dropWhile (· == ' ') with
  | nil => rfl
  | cons c cs =>
    have hc : (name.toList.dropWhile (· == ' ')).head? = some c := by rw [hcs]; rfl
    have hdot : c = '.' := Decidable.byContradiction fun hne => h ⟨c, hc, hne⟩
    have hspace := ne_space_of_head? hc
    rw [expandFrom, if_neg hspace, if_pos hdot]
    rfl

end ScopedConfig.Address
