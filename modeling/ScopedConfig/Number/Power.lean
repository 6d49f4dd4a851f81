/-!
# Powers of two and ten

The two powers that number formats are made of.

Key definitions: `twoPow`, `tenPow`.
Key theorems: `tenPow_succ`.
-/

namespace ScopedConfig.Number

/-- Two to a power. -/
def twoPow (n : Nat) : Nat :=
  Nat.pow 2 n

/-- Ten to a power. -/
def tenPow (n : Nat) : Nat :=
  Nat.pow 10 n

/-! ### Small facts -/

theorem tenPow_zero : tenPow 0 = 1 := rfl

theorem tenPow_succ (n : Nat) : tenPow (n + 1) = tenPow n * 10 := rfl

end ScopedConfig.Number
