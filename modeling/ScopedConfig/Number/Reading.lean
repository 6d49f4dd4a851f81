import ScopedConfig.Number.Binary64

/-!
# Reading numbers

An integer is an optional sign and one or more digits, in the range of sixty-four bits. A decimal is
an optional sign, digits with an optional point among them (one digit at least, on either side of
it), and an optional exponent with an optional sign of its own. Nothing else is a number: words for
infinities are not.

Key definitions: `readInt?`, `readDecimal?`.
-/

namespace ScopedConfig.Number

/-- Takes one sign off the front; the flag says that it was a minus. -/
def takeSign : List Char → Bool × List Char
  | [] => (false, [])
  | c :: cs =>
    if c = '-' then (true, cs)
    else if c = '+' then (false, cs)
    else (false, c :: cs)

/-- The integer with a sign and a magnitude. -/
def signed (negative : Bool) (n : Nat) : Int :=
  if negative then -(n : Int) else n

/-- The integer, if it fits into sixty-four bits. -/
def int64? (n : Int) : Option Int64 :=
  if -(twoPow 63 : Int) ≤ n ∧ n < (twoPow 63 : Int) then some (Int64.ofInt n) else none

/-- The integer that a text writes, if it is one in range. -/
def readInt? (cs : List Char) : Option Int64 :=
  let (negative, rest) := takeSign cs
  (ofDigits? rest).bind fun n => int64? (signed negative n)

/-- The exponent that a text writes behind the digits: none is zero. -/
def readExponent? : List Char → Option Int
  | [] => some 0
  | c :: cs =>
    if c = 'e' ∨ c = 'E' then
      let (negative, rest) := takeSign cs
      (ofDigits? rest).map (signed negative)
    else none

/-- The digits behind the point, when there is a point, and what follows them. -/
def takeFraction : List Char → List Char × List Char
  | [] => ([], [])
  | c :: cs =>
    if c = '.' then (cs.takeWhile Char.isDigit, cs.dropWhile Char.isDigit) else ([], c :: cs)

/-- The number nearest to the decimal that a text writes, infinite when the decimal is too
great. -/
def readDecimal? (cs : List Char) : Option Binary64 :=
  let (negative, unsigned) := takeSign cs
  let whole := unsigned.takeWhile Char.isDigit
  let (fraction, rest) := takeFraction (unsigned.dropWhile Char.isDigit)
  if whole = [] ∧ fraction = [] then none
  else
    (readExponent? rest).map fun e =>
      Binary64.ofDecimal negative (ofDigits (whole ++ fraction)) (e - fraction.length)

end ScopedConfig.Number
