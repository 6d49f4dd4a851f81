import ScopedConfig.Address.Step
import ScopedConfig.Fault
import ScopedConfig.Number.Digits
import ScopedConfig.Text.Quote

/-!
# Segments

An address is cut into segments at the dots outside quotes. A segment is a key, plain or in quotes;
an index into the scopes appended under a key or to the scope itself; or, when it is empty,
the marker of a new anonymous scope. Brackets in a segment that is not one quoted text have to form
an index: a key part, `[`, digits and `]`, and nothing else.

Key definitions: `Segment`, `Segment.parse`, `Segment.steps`, `Address.split`.
-/

namespace ScopedConfig

open Text

/-- One segment of an address. -/
inductive Segment
  /-- The entry under a key. -/
  | key (key : String)
  /-- An appended scope, of the scope under a key or of the scope itself. -/
  | index (list : Option String) (position : Nat)
  /-- A new anonymous scope. -/
  | anonymous
  deriving DecidableEq

namespace Segment

/-- A character that belongs to an index. -/
def isBracket (c : Char) : Bool :=
  c == '[' || c == ']'

/-- The index between the brackets that a text consists of: `[`, anything but brackets, and `]` at
the end. -/
def bracketed? (cs : List Char) : Option (List Char) :=
  (enclosed? '[' ']' cs).filter fun inner => !inner.any isBracket

/-- Cuts an indexed segment into its key part and its index. The key part is one quoted text, or
free of quotes and brackets. -/
def indexParts? (cs : List Char) : Option (List Char × List Char) :=
  match cs with
  | [] => none
  | c :: rest =>
    if isQuote c then
      match rest.dropWhile (· != c) with
      | [] => none
      | _ :: behind =>
        (bracketed? behind).map fun index => (c :: rest.takeWhile (· != c) ++ [c], index)
    else
      let isPlain := fun d => !(isQuote d || isBracket d)
      (bracketed? (cs.dropWhile isPlain)).map fun index => (cs.takeWhile isPlain, index)

/-- The position that an index names. Positions are below `2 ^ 64`. -/
def position? (digits : List Char) : Option Nat :=
  (Number.ofDigits? digits).filter fun n => decide (n < Number.twoPow 64)

/-- Reads a segment. -/
def parseChars (cs : List Char) : Except Fault Segment :=
  if cs = [] then .ok .anonymous
  else if (quoted? cs).isSome ∨ cs.any isBracket = false then
    .ok (.key (String.ofList (unquote cs)))
  else
    match indexParts? cs with
    | none => .error (.indexSyntax (String.ofList cs))
    | some (list, digits) =>
      match position? digits with
      | none => .error (.indexInvalid (String.ofList digits) (String.ofList cs))
      | some i => .ok (.index (if list = [] then none else some (String.ofList (unquote list))) i)

/-- Reads a segment. -/
def parse (s : String) : Except Fault Segment :=
  parseChars s.toList

/-- The steps that lead from a scope to the one that a segment names. -/
def steps : Segment → List Step
  | key k => [.key k]
  | index none i => [.index i]
  | index (some k) i => [.key k, .index i]
  | anonymous => []

end Segment

namespace Address

/-- The segments of an address as they are written. -/
def splitChars (cs : List Char) : List (List Char) :=
  splitOutside '.' none cs

/-- The segments of an address as they are written. -/
def split (s : String) : List String :=
  (splitChars s.toList).map String.ofList

/-- The segments that are remembered of an address: all but the marker of a new scope. -/
def remembered (s : String) : List String :=
  let segments := split s
  if segments.getLast? = some "" then segments.dropLast else segments

/-- Removes one pair of surrounding quotes, if there is one. -/
def unquote (s : String) : String :=
  String.ofList (Text.unquote s.toList)

/-- Reads the segments of an address in order. Only the last one may be empty. -/
def parseSegments (address : String) : List (List Char) → Except Fault (List Segment)
  | [] => .ok []
  | [last] => (Segment.parseChars last).map ([·])
  | piece :: next :: rest =>
    if piece = [] then .error (.emptySegment address)
    else
      match Segment.parseChars piece with
      | .error e => .error e
      | .ok segment => (parseSegments address (next :: rest)).map (segment :: ·)

/-- Reads an address without shorthand. -/
def parse (address : String) : Except Fault (List Segment) :=
  parseSegments address (splitChars address.toList)

/-- The path that an address leads along. -/
def path (segments : List Segment) : List Step :=
  segments.flatMap Segment.steps

end Address

end ScopedConfig
