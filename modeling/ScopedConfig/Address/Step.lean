import ScopedConfig.Text.Shown

/-!
# Steps

A path leads from the root scope to another one by steps, each to a scope under a key or to a scope
in the list of appended ones.

Key definitions: `Step`, `Step.shown`.
-/

namespace ScopedConfig

/-- One step of a path from the root. -/
inductive Step
  /-- To the scope under a key. -/
  | key (key : String)
  /-- To the appended scope at a position. -/
  | index (position : Nat)
  deriving DecidableEq

/-- A step as a message shows it. -/
def Step.shown : Step → String
  | .key k => "Key(" ++ Text.shown k ++ ")"
  | .index i => "Index(" ++ toString i ++ ")"

end ScopedConfig
