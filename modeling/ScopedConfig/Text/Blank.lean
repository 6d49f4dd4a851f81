/-!
# Blank characters

A character is blank when Unicode gives it the property `White_Space`: twenty-five code points in
ten ranges. Trimming and the split of a statement into its words use this class and no other, so
the no-break space counts as blank and the zero-width space does not.

Key definitions: `isBlank`, `trim`, `firstWord`, `afterFirstWord`.
Key theorems: `length_trim_le`.
-/

namespace ScopedConfig.Text

/-- The ranges of the code points with the property `White_Space`, in ascending order. -/
def blankRanges : List (Nat × Nat) :=
  [(0x09, 0x0D), (0x20, 0x20), (0x85, 0x85), (0xA0, 0xA0), (0x1680, 0x1680), (0x2000, 0x200A),
    (0x2028, 0x2029), (0x202F, 0x202F), (0x205F, 0x205F), (0x3000, 0x3000)]

/-- The character has the property `White_Space`. -/
def isBlank (c : Char) : Bool :=
  blankRanges.any fun r => decide (r.1 ≤ c.toNat) && decide (c.toNat ≤ r.2)

/-- Drops the blanks in front. -/
def trimStart (cs : List Char) : List Char :=
  cs.dropWhile isBlank

/-- Drops the blanks at the end. -/
def trimEnd : List Char → List Char
  | [] => []
  | c :: cs =>
    match trimEnd cs with
    | [] => if isBlank c then [] else [c]
    | d :: ds => c :: d :: ds

/-- Drops the blanks on both sides. -/
def trim (cs : List Char) : List Char :=
  trimEnd (trimStart cs)

/-- The text in front of the first blank. -/
def firstWord (cs : List Char) : List Char :=
  cs.takeWhile (!isBlank ·)

/-- The text from the first blank on. -/
def afterFirstWord (cs : List Char) : List Char :=
  cs.dropWhile (!isBlank ·)

/-! ### Small facts -/

theorem length_trimStart_le (cs : List Char) : (trimStart cs).length ≤ cs.length := by
  simpa [trimStart] using (List.dropWhile_sublist isBlank (l := cs)).length_le

theorem length_trimEnd_le : ∀ cs : List Char, (trimEnd cs).length ≤ cs.length
  | [] => Nat.le_refl 0
  | c :: cs => by
    have ih := length_trimEnd_le cs
    unfold trimEnd
    split
    · split <;> simp
    · rename_i h
      rw [h] at ih
      simpa using ih

theorem length_trim_le (cs : List Char) : (trim cs).length ≤ cs.length :=
  Nat.le_trans (length_trimEnd_le _) (length_trimStart_le cs)

theorem firstWord_append (cs : List Char) : firstWord cs ++ afterFirstWord cs = cs :=
  List.takeWhile_append_dropWhile

end ScopedConfig.Text
