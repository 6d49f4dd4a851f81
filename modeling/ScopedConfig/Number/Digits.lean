import ScopedConfig.Number.Power

/-!
# Decimal digits

Reading and counting runs of the ASCII digits.

Key definitions: `ofDigits`, `ofDigits?`, `digitCount`, `dropZeros`.
-/

namespace ScopedConfig.Number

/-- The number that a run of digits writes. -/
def ofDigits (cs : List Char) : Nat :=
  cs.foldl (fun n c => 10 * n + (c.toNat - 48)) 0

/-- The number that a text of one or more digits, and of nothing else, writes. -/
def ofDigits? (cs : List Char) : Option Nat :=
  if cs ≠ [] ∧ cs.all Char.isDigit then some (ofDigits cs) else none

/-- How many digits the number has; zero has one. -/
def digitCount (n : Nat) : Nat :=
  (Nat.toDigits 10 n).length

/-- Divides by ten as long as the number ends in zero, at most `limit` times; gives the number left
and how often it was divided. -/
def dropZeros : (limit : Nat) → Nat → Nat × Nat
  | 0, n => (n, 0)
  | limit + 1, n =>
    if n % 10 = 0 then
      let (m, k) := dropZeros limit (n / 10)
      (m, k + 1)
    else (n, 0)

/-! ### Small facts -/

/-- Dropping zeros keeps the value: they come back as a power of ten. -/
theorem dropZeros_value : ∀ limit n : Nat,
    (dropZeros limit n).1 * tenPow (dropZeros limit n).2 = n
  | 0, n => by simp [dropZeros, tenPow_zero]
  | limit + 1, n => by
    unfold dropZeros
    split
    · have ih := dropZeros_value limit (n / 10)
      simp only [tenPow_succ]
      rw [← Nat.mul_assoc, ih]
      omega
    · simp [tenPow_zero]

end ScopedConfig.Number
