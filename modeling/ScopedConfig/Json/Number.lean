import ScopedConfig.Json.Datum
import ScopedConfig.Number.Reading

/-!
# JSON numbers

An integer that fits into sixty-four bits with a sign is kept as it is; minus zero, a greater
integer and a number with a fraction or an exponent become the number near their value. That number
is found from the leading digits that fit into sixty-four bits without a sign: the digits after
them count for the power of ten only, and the significand is multiplied or divided by that power,
each step rounded. A value past the greatest finite number is refused.

Key definitions: `Json.number?`.
-/

namespace ScopedConfig.Json

open Number (Binary64 ofDigits ofDigits? takeSign signed int64? twoPow)

/-- Extends a significand by digits as long as it stays below `2 ^ 64`; gives it with the digits
that are left. -/
def extend : Nat → List Char → Nat × List Char
  | s, [] => (s, [])
  | s, c :: cs =>
    let next := 10 * s + (c.toNat - 48)
    if next < twoPow 64 then extend next cs else (s, c :: cs)

/-- The number nearest to a power of ten. -/
def powerOfTen (n : Nat) : Binary64 :=
  .ofDecimal false 1 n

/-- A magnitude times a power of ten, rounded at each step. Powers beyond `10 ^ 308` are refused
above and taken in steps below, where the magnitude has vanished after the second step. -/
def scale? : (steps : Nat) → Binary64 → Int → Option Binary64
  | 0, x, _ => some x
  | steps + 1, x, e =>
    if e.natAbs ≤ 308 then
      if 0 ≤ e then some (x.mulMagnitude (powerOfTen e.natAbs)) |>.filter Binary64.isFinite
      else some (x.divMagnitude (powerOfTen e.natAbs))
    else if x.isZero then some x
    else if 0 ≤ e then none
    else scale? steps (x.divMagnitude (powerOfTen 308)) (e + 308)

/-- The number near `± significand · 10 ^ exponent`. -/
def float? (negative : Bool) (significand : Nat) (exponent : Int) : Option Datum :=
  (scale? 3 (.ofRatio false significand 1) exponent).map fun x => .float (x.withSign negative)

/-- Reads the exponent that may follow the digits, and gives the number. -/
def exponentPart? (negative : Bool) (significand : Nat) (exponent : Int) (cs : List Char) :
    Option (Datum × List Char) :=
  match cs with
  | c :: rest =>
    if c = 'e' ∨ c = 'E' then
      let (down, rest) := takeSign rest
      (ofDigits? (rest.takeWhile Char.isDigit)).bind fun e =>
        (float? negative significand (exponent + signed down e)).map
          (·, rest.dropWhile Char.isDigit)
    else (float? negative significand exponent).map (·, cs)
  | [] => (float? negative significand exponent).map (·, cs)

/-- The integer, when it has one of the two whole forms. -/
def whole (negative : Bool) (n : Nat) : Datum :=
  match (int64? (signed negative n)).filter fun _ => !(negative && n == 0) with
  | some i => .int i
  | none => .float (.ofRatio negative n 1)

/-- Reads a number behind its minus sign. -/
def unsigned? (negative : Bool) (cs : List Char) : Option (Datum × List Char) :=
  let digits := cs.takeWhile Char.isDigit
  let rest := cs.dropWhile Char.isDigit
  if digits = [] ∨ (digits.head? = some '0' ∧ digits.length ≠ 1) then none
  else
    let (s, left) := extend 0 digits
    match rest with
    | c :: behind =>
      if c = '.' then
        let fraction := behind.takeWhile Char.isDigit
        if fraction = [] then none
        else
          let (t, unused) := extend s fraction
          exponentPart? negative t (left.length - (fraction.length - unused.length : Nat))
            (behind.dropWhile Char.isDigit)
      else if c = 'e' ∨ c = 'E' ∨ left ≠ [] then exponentPart? negative s left.length rest
      else some (whole negative s, rest)
    | [] =>
      if left ≠ [] then exponentPart? negative s left.length rest
      else some (whole negative s, rest)

/-- Reads a number. -/
def number? : List Char → Option (Datum × List Char)
  | [] => none
  | c :: cs => if c = '-' then unsigned? true cs else unsigned? false (c :: cs)

end ScopedConfig.Json
