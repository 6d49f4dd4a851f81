import ScopedConfig.Value.Basic

/-!
# JSON data

What a JSON text says, and the value it gives. Every datum but an object gives a value; an object
gives none, and neither does a list with an object anywhere inside.

Key definitions: `Json.Datum`, `Json.Datum.value?`.
-/

namespace ScopedConfig.Json

open Number (Binary64)

/-- A JSON datum. An integer is one that fits into sixty-four bits. -/
inductive Datum
  | null
  | bool (b : Bool)
  | int (n : Int64)
  | float (x : Binary64)
  | string (s : String)
  | list (items : List Datum)
  | object (members : List (String × Datum))

namespace Datum

mutual

/-- The value that a datum gives. -/
def value? : Datum → Option Value
  | null => some .null
  | bool b => some (.bool b)
  | int n => some (.int n)
  | float x => some (.float x)
  | string s => some (.string s)
  | list items => (values? items).map .list
  | object _ => none

/-- The values that data give, if each gives one. -/
def values? : List Datum → Option (List Value)
  | [] => some []
  | d :: ds =>
    match value? d, values? ds with
    | some v, some vs => some (v :: vs)
    | _, _ => none

end

end Datum

end ScopedConfig.Json
