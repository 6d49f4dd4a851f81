import ScopedConfig.Arena.Basic

/-!
# Describing a scope

A scope is described by the address that leads to it from the root. The address is found by
climbing: from a scope to its parent, as long as the parent holds the scope under a key or in its
list. A scope that its parent does not hold, or that the arena does not know, is detached. A parent
always has a smaller number, so the climb from scope `n` ends after `n + 1` rounds at most.

Key definitions: `Step.render`, `Arena.climb`, `Arena.describe`.
-/

namespace ScopedConfig

/-- A character that a key in an address must be quoted for. -/
def needsQuotes (c : Char) : Bool :=
  c == '.' || c == ' ' || c == '[' || c == ']' || c == '\'' || c == '"'

/-- A key as an address shows it: in single quotes if it must be quoted, and in double quotes if
it has a single quote in it. -/
def keyText (key : List Char) : List Char :=
  if key.any needsQuotes then
    if key.contains '\'' then '"' :: key ++ ['"'] else '\'' :: key ++ ['\'']
  else key

/-- Puts a step behind the address that leads to it. A dot stands in front of a key unless nothing
does. -/
def Step.appendTo (address : List Char) : Step → List Char
  | .key k => (if address = [] then [] else address ++ ['.']) ++ keyText k.toList
  | .index i => address ++ '[' :: Nat.toDigits 10 i ++ [']']

/-- The address of a path. -/
def Step.render (path : List Step) : String :=
  String.ofList (path.foldl Step.appendTo [])

/-- Where a climb ends. -/
inductive Climb
  /-- At the root; the path leads back from there. -/
  | root (path : List Step)
  /-- At a scope that its parent does not hold, or that does not exist. -/
  | detached
  /-- On the way, when the rounds are used up. -/
  | unfinished
  deriving DecidableEq

/-- The step by which a scope holds another one: the first key, or else the position in its
list. -/
def Scope.stepTo? {V : Type} (s : Scope V) (child : ScopeId) : Option Step :=
  match s.entries.firstKey? (·.scope? == some child) with
  | some key => some (.key key)
  | none => (s.appended.idxOf? child).map .index

namespace Arena

variable {V : Type}

/-- Climbs from a scope, in front of a path from it, for a number of rounds. -/
def climb (a : Arena V) : (rounds : Nat) → ScopeId → List Step → Climb
  | 0, _, _ => .unfinished
  | rounds + 1, id, path =>
    match a.scopes[id]? with
    | none => .detached
    | some s =>
      match s.parent? with
      | none => .root path
      | some parent =>
        match a.scopes[parent]?.bind (·.stepTo? id) with
        | none => .detached
        | some step => climb a rounds parent (step :: path)

/-- The address of a scope, or the mark of a detached one. -/
def describe (a : Arena V) (id : ScopeId) : String :=
  match a.climb (id + 1) id [] with
  | .root path => Step.render path
  | _ => "<detached>"

end Arena

end ScopedConfig
