import ScopedConfig.Number.Binary64

/-!
# The shortest decimal

A finite number that is not zero is the nearest one to every decimal in an interval around it. The
shortest decimal of the number has the fewest digits of all decimals in the interval, and of those
with as many digits it is the nearest. On a grid of decimals with a given number of digits only the
two neighbours of the number need to be tried: if any point of the grid lies in the interval, then
one of them does. Seventeen digits always suffice.

Where the two neighbours are equally near, the format that is written decides.

Key definitions: `Decimal`, `Tie`, `shortest`.
-/

namespace ScopedConfig.Number

/-- The value `coefficient · 10 ^ exponent`. -/
structure Decimal where
  coefficient : Nat
  exponent : Int
  deriving DecidableEq

/-- Which of two equally near neighbours is taken. -/
inductive Tie
  /-- The greater one. -/
  | up
  /-- The one with an even last digit. -/
  | even
  deriving DecidableEq

namespace Shortest

/-- The ends of the interval of decimals that round to the number, in quarters of a unit of its
last place. The gap below the least significand of a binade is half as wide. -/
def interval (x : Binary64) : Nat × Nat :=
  let low := if x.significand = twoPow 52 ∧ 1 < x.exponentField then 1 else 2
  (4 * x.significand - low, 4 * x.significand + 2)

/-- Compares `n · 10 ^ e` with `m · 2 ^ q`. -/
def compareDecimal (n : Nat) (e : Int) (m : Nat) (q : Int) : Ordering :=
  compare (n * tenPow e.toNat * twoPow (-q).toNat) (m * twoPow q.toNat * tenPow (-e).toNat)

/-- The decimal `n · 10 ^ e` rounds to the number. The ends of the interval do so when the
significand is even. -/
def roundsTo (x : Binary64) (n : Nat) (e : Int) : Bool :=
  let (low, high) := interval x
  let q := x.exponent - 2
  let endsCount := decide (x.significand % 2 = 0)
  let fromBelow := compareDecimal n e low q
  let fromAbove := compareDecimal n e high q
  (fromBelow == .gt || (endsCount && fromBelow == .eq)) &&
    (fromAbove == .lt || (endsCount && fromAbove == .eq))

/-- The number of digits in front of the decimal point of a positive quotient; zero or less when
the quotient is below a tenth. -/
def pointOf (num den : Nat) : Int :=
  let guess : Int := (digitCount num : Int) - (digitCount den : Int)
  if den * tenPow guess.toNat ≤ num * tenPow (-guess).toNat then guess + 1 else guess

/-- The greatest multiple of `10 ^ e` not above the number, as a count of `10 ^ e`. -/
def floorAt (x : Binary64) (e : Int) : Nat :=
  x.ratio.1 * tenPow (-e).toNat / (x.ratio.2 * tenPow e.toNat)

/-- The neighbour of the number among the multiples of `10 ^ e` that rounds to it and, of two that
do, is the nearer. -/
def neighbour? (tie : Tie) (x : Binary64) (e : Int) : Option Nat :=
  let below := floorAt x e
  match roundsTo x below e, roundsTo x (below + 1) e with
  | false, false => none
  | true, false => some below
  | false, true => some (below + 1)
  | true, true =>
    match compareDecimal (2 * below + 1) e (2 * x.significand) x.exponent with
    | .gt => some below
    | .lt => some (below + 1)
    | .eq => some (if tie = .even ∧ below % 2 = 0 then below else below + 1)

/-- The first grid, from `digits` digits on, that has a decimal for the number. -/
def search (tie : Tie) (x : Binary64) (point : Int) : (limit digits : Nat) → Option Decimal
  | 0, _ => none
  | limit + 1, digits =>
    match neighbour? tie x (point - digits) with
    | some n => some ⟨n, point - digits⟩
    | none => search tie x point limit (digits + 1)

end Shortest

/-- The shortest decimal of a number that is finite and not zero, without a trailing zero; the
sign is left out. -/
def shortest (tie : Tie) (x : Binary64) : Decimal :=
  let point := Shortest.pointOf x.ratio.1 x.ratio.2
  let found := (Shortest.search tie x point 17 1).getD ⟨x.significand, 0⟩
  let (coefficient, zeros) := dropZeros 17 found.coefficient
  ⟨coefficient, found.exponent + zeros⟩

end ScopedConfig.Number
