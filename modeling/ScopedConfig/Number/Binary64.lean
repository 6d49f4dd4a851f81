import ScopedConfig.Number.Digits

/-!
# Double-precision numbers

A number is held as its sixty-four bits, so that two numbers are the same exactly when their bits
are, infinities, the two zeros and every not-a-number included. Its finite values are
`± significand · 2 ^ exponent`, and all arithmetic on them is exact arithmetic on natural numbers
followed by one rounding to the nearest number, a tie going to the even significand.

Key definitions: `Binary64`, `Binary64.ofRatio`, `Binary64.ofDecimal`, `Binary64.ofInt`.
-/

namespace ScopedConfig.Number

/-- A double-precision number, as its bits: sign, eleven bits of exponent, fifty-two of
fraction. -/
structure Binary64 where
  bits : UInt64
  deriving DecidableEq

namespace Binary64

/-! ### The three fields -/

/-- The sign bit is set. -/
def isNegative (x : Binary64) : Bool :=
  decide (twoPow 63 ≤ x.bits.toNat)

/-- The exponent field. -/
def exponentField (x : Binary64) : Nat :=
  x.bits.toNat / twoPow 52 % twoPow 11

/-- The fraction field. -/
def fractionField (x : Binary64) : Nat :=
  x.bits.toNat % twoPow 52

/-- The number with a sign and a magnitude, the sixty-three bits below the sign. -/
def ofMagnitude (negative : Bool) (magnitude : Nat) : Binary64 :=
  ⟨UInt64.ofNat ((if negative then twoPow 63 else 0) + magnitude)⟩

/-! ### Classes and values -/

/-- The magnitude bits of infinity. -/
def infinityMagnitude : Nat :=
  2047 * twoPow 52

/-- Neither infinite nor not-a-number. -/
def isFinite (x : Binary64) : Bool :=
  decide (x.exponentField < 2047)

/-- Not a number. -/
def isNaN (x : Binary64) : Bool :=
  decide (x.exponentField = 2047) && decide (x.fractionField ≠ 0)

/-- One of the two zeros. -/
def isZero (x : Binary64) : Bool :=
  decide (x.exponentField = 0) && decide (x.fractionField = 0)

/-- The whole significand of a finite number, the implicit bit included. -/
def significand (x : Binary64) : Nat :=
  if x.exponentField = 0 then x.fractionField else twoPow 52 + x.fractionField

/-- The power of two that the significand of a finite number is multiplied by. -/
def exponent (x : Binary64) : Int :=
  if x.exponentField = 0 then -1074 else x.exponentField - 1075

/-- The magnitude of a finite number as a quotient of natural numbers. -/
def ratio (x : Binary64) : Nat × Nat :=
  (x.significand * twoPow x.exponent.toNat, twoPow (-x.exponent).toNat)

/-- The magnitude of a finite number, if it is whole. -/
def whole? (x : Binary64) : Option Nat :=
  let (num, den) := x.ratio
  if num % den = 0 then some (num / den) else none

/-! ### Rounding -/

/-- The quotient, rounded to the nearest natural number, a tie to the even one. -/
def roundQuotient (num den : Nat) : Nat :=
  let floor := num / den
  let twice := 2 * (num % den)
  if twice < den ∨ (twice = den ∧ floor % 2 = 0) then floor else floor + 1

/-- The exponent of the significand of the number nearest to a quotient: the significand has
fifty-three bits, or the exponent is the least there is. -/
def exponentOfRatio (num den : Nat) : Int :=
  let guess : Int := (num.log2 : Int) - (den.log2 : Int) - 53
  let isWide := decide (twoPow 53 * den * twoPow guess.toNat ≤ num * twoPow (-guess).toNat)
  max (if isWide then guess + 1 else guess) (-1074)

/-- The number nearest to `± num / den`, where `den` is not zero. What rounds past the greatest
finite number is infinite. -/
def ofRatio (negative : Bool) (num den : Nat) : Binary64 :=
  if num = 0 then ofMagnitude negative 0
  else
    let q := exponentOfRatio num den
    let n := roundQuotient (num * twoPow (-q).toNat) (den * twoPow q.toNat)
    ofMagnitude negative (min ((q + 1074).toNat * twoPow 52 + n) infinityMagnitude)

/-- The number nearest to `± coefficient · 10 ^ exponent`. Beyond the powers of ten that bound the
range the answer is known without the quotient. -/
def ofDecimal (negative : Bool) (coefficient : Nat) (exponent : Int) : Binary64 :=
  if coefficient = 0 then ofMagnitude negative 0
  else
    let point := digitCount coefficient + exponent
    if 310 < point then ofMagnitude negative infinityMagnitude
    else if point < -330 then ofMagnitude negative 0
    else ofRatio negative (coefficient * tenPow exponent.toNat) (tenPow (-exponent).toNat)

/-- The number nearest to an integer. -/
def ofInt (n : Int) : Binary64 :=
  ofRatio (decide (n < 0)) n.natAbs 1

/-! ### Arithmetic on magnitudes -/

/-- The product of the magnitudes of two finite numbers, rounded. -/
def mulMagnitude (x y : Binary64) : Binary64 :=
  ofRatio false (x.ratio.1 * y.ratio.1) (x.ratio.2 * y.ratio.2)

/-- The quotient of the magnitudes of two finite numbers, the second not zero, rounded. -/
def divMagnitude (x y : Binary64) : Binary64 :=
  ofRatio false (x.ratio.1 * y.ratio.2) (x.ratio.2 * y.ratio.1)

/-- The number with the same magnitude and a given sign. -/
def withSign (negative : Bool) (x : Binary64) : Binary64 :=
  ofMagnitude negative (x.bits.toNat % twoPow 63)

end Binary64

end ScopedConfig.Number
