import ScopedConfig.Text.Blank
import ScopedConfig.Workspace.Basic

/-!
# Assigning values

A value is assigned to a name whose last segment is a key; the scopes in front of it are created if
need be. A value is assigned locally to one plain or quoted key of the scope that the cursor stands
in.

Key definitions: `Workspace.assign`, `Workspace.assignLocal`, `Address.target`, `Address.localKey`.
-/

namespace ScopedConfig

namespace Address

/-- The segments in front of the key that an address ends in, and the key. -/
def target (a : Address) : Except Fault (List Segment × String) :=
  match a.segments.getLast? with
  | some (.key k) => .ok (a.segments.dropLast, k)
  | some (.index _ _) => .error (.indexTarget a.text)
  | some .anonymous | none => .error (.anonymousTarget a.text)

/-- The one key that a text is, blanks around it left out. -/
def localKey (text : String) : Except Fault String :=
  let trimmed := Text.trim text.toList
  if trimmed = [] ∨ (splitChars trimmed).length ≠ 1 then .error (.notLocalKey text)
  else
    match Segment.parseChars trimmed with
    | .ok (.key k) => .ok k
    | _ => .error (.notLocalKey text)

end Address

namespace Workspace

variable {V : Type}

/-- Writes a value under a key of the scope that segments lead to from the root. -/
def writeAt (w : Workspace V) (segments : List Segment) (key : String) (v : V) :
    Except Fault Unit × Workspace V :=
  match w.arena.walk .root segments with
  | (.error e, arena) => (.error e, { w with arena := arena })
  | (.ok id, arena) =>
    match arena.write id key v with
    | .error e => (.error e, { w with arena := arena })
    | .ok arena => (.ok (), { w with arena := arena })

/-- Assigns a value to a name. -/
def assign (w : Workspace V) (name : String) (v : V) : Except Fault Unit × Workspace V :=
  match (w.address name).bind Address.target with
  | .error e => (.error e, w)
  | .ok (segments, key) =>
    match w.popAnonymous with
    | .error e => (.error e, w)
    | .ok w => w.writeAt segments key v

/-- Assigns a value to a key of the scope that the cursor stands in. -/
def assignLocal (w : Workspace V) (text : String) (v : V) : Except Fault Unit × Workspace V :=
  match Address.localKey text with
  | .error e => (.error e, w)
  | .ok key =>
    match w.currentScope.bind fun id => w.arena.write id key v with
    | .error e => (.error e, w)
    | .ok arena => (.ok (), { w with arena := arena })

end Workspace

end ScopedConfig
