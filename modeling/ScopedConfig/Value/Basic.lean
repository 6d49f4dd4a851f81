import ScopedConfig.Number.Binary64

/-!
# Values

What a key of a document can hold. The accessors give the content of a value of one kind and
nothing of any other, save that an integer also counts as the number nearest to it.

Key definitions: `Value`.
-/

namespace ScopedConfig

open Number (Binary64)

/-- A value of a document. -/
inductive Value
  | null
  | bool (b : Bool)
  | int (n : Int64)
  | float (x : Binary64)
  | string (s : String)
  | list (items : List Value)

namespace Value

/-- The name of the kind of a value. -/
def kindName : Value → String
  | null => "null"
  | bool _ => "bool"
  | int _ => "int"
  | float _ => "float"
  | string _ => "string"
  | list _ => "list"

/-- The value is null. -/
def isNull : Value → Bool
  | null => true
  | _ => false

/-- The truth value, if the value is one. -/
def bool? : Value → Option Bool
  | bool b => some b
  | _ => none

/-- The integer, if the value is one. -/
def int? : Value → Option Int64
  | int n => some n
  | _ => none

/-- The number, or the one nearest to an integer. -/
def float? : Value → Option Binary64
  | float x => some x
  | int n => some (Binary64.ofInt n.toInt)
  | _ => none

/-- The text, if the value is one. -/
def string? : Value → Option String
  | string s => some s
  | _ => none

/-- The items, if the value is a list. -/
def list? : Value → Option (List Value)
  | list items => some items
  | _ => none

end Value

end ScopedConfig
