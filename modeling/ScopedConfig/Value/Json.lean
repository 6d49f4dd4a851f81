import ScopedConfig.Json.Quoted
import ScopedConfig.Value.Display

/-!
# Values as JSON

The JSON text of a value has no blanks outside its strings. A finite number has the fewest digits
that read back; it is written positionally from `1e-5` up to below `1e16`, always with a fraction,
and with an exponent outside. The numbers that JSON lacks are null.

Key definitions: `Value.toJson`, `Value.jsonChars`.
-/

namespace ScopedConfig

namespace Number

/-- The layout of numbers in JSON: positional for powers of ten from minus five to fifteen, and the
even one of two equally near decimals. -/
def jsonForm : Form := ⟨.even, fun power => decide (-5 ≤ power) && decide (power < 16)⟩

/-- The JSON text of a number. -/
def jsonFloat (x : Binary64) : List Char :=
  if x.isFinite then jsonForm.write x else "null".toList

end Number

namespace Value

mutual

/-- The characters of the JSON text of a value. -/
def jsonChars : Value → List Char
  | null => "null".toList
  | bool true => "true".toList
  | bool false => "false".toList
  | int n => Number.intChars n.toInt
  | float x => Number.jsonFloat x
  | string s => Json.quotedChars s.toList
  | list items => '[' :: jsonItems items ++ [']']

/-- The characters of items, a comma between them. -/
def jsonItems : List Value → List Char
  | [] => []
  | [v] => jsonChars v
  | v :: w :: vs => jsonChars v ++ ',' :: jsonItems (w :: vs)

end

/-- The JSON text of a value. -/
def toJson (v : Value) : String :=
  String.ofList v.jsonChars

end Value

end ScopedConfig
