import ScopedConfig.Number.Form
import ScopedConfig.Text.Escape
import ScopedConfig.Value.Basic

/-!
# Displayed values

A value is displayed as a literal: texts in double quotes with escapes, lists in brackets with a
comma and a space between the items. A number that is whole is displayed with all its digits and
one zero behind the point, any other finite number with the fewest digits that read back and never
with an exponent.

Key definitions: `Value.display`, `Value.displayChars`.
-/

namespace ScopedConfig

open Number (Binary64)

namespace Number

/-- The digits of an integer, behind a minus sign when it is negative. -/
def intChars (n : Int) : List Char :=
  if n < 0 then '-' :: Nat.toDigits 10 n.natAbs else Nat.toDigits 10 n.natAbs

/-- The layout of numbers with a fraction: always positional, and the greater of two equally near
decimals. -/
def displayForm : Form := ⟨.up, fun _ => true⟩

/-- The displayed form of a number. -/
def displayFloat (x : Binary64) : List Char :=
  let sign := if x.isNegative then ['-'] else []
  if x.isNaN then "NaN".toList
  else if !x.isFinite then sign ++ "inf".toList
  else
    match x.whole? with
    | some n => sign ++ Nat.toDigits 10 n ++ ['.', '0']
    | none => displayForm.write x

end Number

namespace Value

mutual

/-- The characters of a displayed value. -/
def displayChars : Value → List Char
  | null => "null".toList
  | bool true => "true".toList
  | bool false => "false".toList
  | int n => Number.intChars n.toInt
  | float x => Number.displayFloat x
  | string s => '"' :: Text.escape s.toList ++ ['"']
  | list items => '[' :: displayItems items ++ [']']

/-- The characters of displayed items, a comma and a space between them. -/
def displayItems : List Value → List Char
  | [] => []
  | [v] => displayChars v
  | v :: w :: vs => displayChars v ++ ',' :: ' ' :: displayItems (w :: vs)

end

/-- The displayed form of a value. -/
def display (v : Value) : String :=
  String.ofList v.displayChars

end Value

end ScopedConfig
