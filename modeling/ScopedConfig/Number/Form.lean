import ScopedConfig.Number.Shortest

/-!
# Written forms of numbers

A form says how the shortest decimal of a number is laid out: which tie it takes and between which
powers of ten it is written positionally. Elsewhere it is written with one digit in front of the
point and an exponent that always has its sign.

Key definitions: `Form`, `Form.write`, `positional`, `scientific`.
-/

namespace ScopedConfig.Number

/-- The digits of a decimal with the point in its place. A whole number keeps one zero behind the
point. -/
def positional (d : Decimal) : List Char :=
  let digits := Nat.toDigits 10 d.coefficient
  let point : Int := digits.length + d.exponent
  if 0 ≤ d.exponent then
    digits ++ List.replicate d.exponent.toNat '0' ++ ['.', '0']
  else if 0 < point then
    digits.take point.toNat ++ '.' :: digits.drop point.toNat
  else
    '0' :: '.' :: List.replicate (-point).toNat '0' ++ digits

/-- The digits of a decimal with the point behind the first and the exponent behind them. -/
def scientific (d : Decimal) : List Char :=
  let digits := Nat.toDigits 10 d.coefficient
  let power : Int := digits.length - 1 + d.exponent
  let fraction := digits.drop 1
  digits.take 1 ++ (if fraction = [] then [] else '.' :: fraction) ++
    'e' :: (if power < 0 then '-' else '+') :: Nat.toDigits 10 power.natAbs

/-- A layout of shortest decimals. -/
structure Form where
  /-- Which of two equally near decimals is written. -/
  tie : Tie
  /-- The power of ten of the first digit allows the positional layout. -/
  isPositional : Int → Bool

/-- Writes a finite number. -/
def Form.write (form : Form) (x : Binary64) : List Char :=
  let d := shortest form.tie x
  let power : Int := digitCount d.coefficient - 1 + d.exponent
  let sign := if x.isNegative then ['-'] else []
  sign ++
    (if x.isZero then ['0', '.', '0']
    else if form.isPositional power then positional d
    else scientific d)

end ScopedConfig.Number
