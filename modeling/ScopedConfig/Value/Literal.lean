import ScopedConfig.Fault
import ScopedConfig.Number.Reading
import ScopedConfig.Text.Blank
import ScopedConfig.Text.Escape
import ScopedConfig.Text.Nesting
import ScopedConfig.Value.Basic

/-!
# Literals

The written form of a value in a document. After trimming, a literal is a word for null or a truth
value in one of three spellings, a quoted text with escapes, a list in brackets whose items are
literals themselves, a number, or else a text that stands for itself. Nothing at all is null.
Braces are refused.

Key definitions: `Value.ofLiteral`, `Literal.read`.
-/

namespace ScopedConfig

namespace Literal

open Text

/-- The value of a word that has one. -/
def keyword? (text : String) : Option Value :=
  if text = "" ∨ text = "null" ∨ text = "NULL" ∨ text = "Null" then some .null
  else if text = "true" ∨ text = "TRUE" ∨ text = "True" then some (.bool true)
  else if text = "false" ∨ text = "FALSE" ∨ text = "False" then some (.bool false)
  else none

/-- The value of a text without quotes and brackets around it: an integer, a finite number, or the
text. -/
def bare (text : List Char) : Value :=
  match Number.readInt? text with
  | some n => .int n
  | none =>
    match (Number.readDecimal? text).filter Number.Binary64.isFinite with
    | some x => .float x
    | none => .string (String.ofList text)

/-- Reads a literal. The items of a list are read in order, and the first one that is refused
refuses the list. -/
def read (cs : List Char) : Except Fault Value :=
  let text := trim cs
  match keyword? (String.ofList text) with
  | some v => .ok v
  | none =>
    match quoted? text with
    | some inner => .ok (.string (String.ofList (unescape inner)))
    | none =>
      match _h : enclosed? '[' ']' text with
      | some inner =>
        if trim inner = [] then .ok (.list [])
        else ((splitItems .outside inner).attach.mapM fun item => read item.1).map .list
      | none =>
        match enclosed? '{' '}' text with
        | some _ => .error (.objectLiteral (String.ofList text))
        | none => .ok (bare text)
termination_by cs.length
decreasing_by
  have hitem := length_le_of_mem_splitItems inner .outside item.2
  have hinner := length_of_enclosed? _h
  have htrim : text.length ≤ cs.length := length_trim_le cs
  omega

end Literal

/-- The value that a literal writes. -/
def Value.ofLiteral (literal : String) : Except Fault Value :=
  Literal.read literal.toList

end ScopedConfig
