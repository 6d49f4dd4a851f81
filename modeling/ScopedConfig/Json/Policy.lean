import ScopedConfig.Json.Quoted
import ScopedConfig.Json.Reader
import ScopedConfig.Policy

/-!
# Policies as JSON

A policy is written as a string, its name. It is read from that string, and from an object whose
one key is the name and whose value is null.

Key definitions: `Policy.toJson`, `Policy.ofJson`.
-/

namespace ScopedConfig.Policy

open Json

/-- The JSON text of a policy. -/
def toJson (p : Policy) : String :=
  quoted p.name

/-- The refusal of a datum that begins a text and is not the one expected. -/
def refusalOf (cs : List Char) : Refusal :=
  match cs with
  | [] => .notJson
  | c :: _ =>
    if c = '[' ∨ c = '{' ∨ (scalar? cs).isSome then .otherShape else .notJson

/-- The policy, when only blanks follow it. -/
def finish (p : Policy) (rest : List Char) : Except Refusal Policy :=
  if skip rest = [] then .ok p else .error .notJson

/-- Reads the string that names a policy. -/
def ofNameJson (cs : List Char) : Except Refusal (Policy × List Char) :=
  match string? cs with
  | none => .error (refusalOf cs)
  | some (name, rest) =>
    match ofName? name with
    | none => .error .otherShape
    | some p => .ok (p, rest)

/-- Reads null and the closing brace behind the name and its colon. -/
def ofNullJson (p : Policy) (cs : List Char) : Except Refusal Policy :=
  match word? "null" cs with
  | none => .error (refusalOf cs)
  | some rest =>
    match skip rest with
    | [] => .error .notJson
    | c :: rest => if c = '}' then finish p rest else .error .notJson

/-- The policy that a JSON text gives. -/
def ofJson (text : String) : Except Refusal Policy :=
  match skip text.toList with
  | [] => .error .notJson
  | c :: cs =>
    if c = '"' then
      (ofNameJson (c :: cs)).bind fun (p, rest) => finish p rest
    else if c = '{' then
      (ofNameJson (skip cs)).bind fun (p, rest) =>
        match skip rest with
        | [] => .error .notJson
        | c :: rest => if c = ':' then ofNullJson p (skip rest) else .error .notJson
    else .error .notJson

end ScopedConfig.Policy
