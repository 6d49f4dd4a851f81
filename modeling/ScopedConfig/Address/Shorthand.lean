import ScopedConfig.Address.Segment

/-!
# Shorthand names

A name may start with dots that stand for the remembered segments of the last address: the first
dot for the first segment, and so on. A name of dots alone stands for one segment more than it has
dots. Once another character was seen, a dot separates two segments or ends the name, and two dots
may not follow each other. Spaces outside quotes are dropped.

With `x`, `y`, `z` remembered, `..c` is `x.y.c`, `.` is `x.y`, and `name.` stays as it is.

Key definitions: `Address`, `Address.expand`, `Address.ofName`.
-/

namespace ScopedConfig

open Text

/-- An address without shorthand, with its segments. -/
structure Address where
  /-- The address as it is written. -/
  text : String
  segments : List Segment
  deriving DecidableEq

namespace Address

/-- The address ends in the marker of a new anonymous scope. -/
def isAnonymous (a : Address) : Bool :=
  a.segments.getLast? == some .anonymous

/-- The part of a name behind its leading dots, which may stand in a quote and right behind a
dot. -/
def expandRest (name : String) : Option Char → (afterDot : Bool) → List Char →
    Except Fault (List Char)
  | _, _, [] => .ok []
  | some q, afterDot, c :: cs =>
    (expandRest name (quoteAfter (some q) c) afterDot cs).map (c :: ·)
  | none, afterDot, c :: cs =>
    if c = ' ' then expandRest name none afterDot cs
    else if c = '.' then
      if afterDot then .error (.misplacedDot name)
      else (expandRest name none true cs).map ('.' :: ·)
    else (expandRest name (quoteAfter none c) false cs).map (c :: ·)

/-- The remembered segment at a position. -/
def slot (name : String) (remembered : List String) (position : Nat) :
    Except Fault (List Char) :=
  match remembered[position]? with
  | some segment => .ok segment.toList
  | none => .error (.tooManyDots name remembered.length)

/-- Replaces the leading dots of a name, of which a number has been passed, by remembered
segments. -/
def expandFrom (name : String) (remembered : List String) : Nat → List Char →
    Except Fault (List Char)
  | dots, [] => slot name remembered dots
  | dots, c :: cs =>
    if c = ' ' then expandFrom name remembered dots cs
    else if c = '.' then
      match slot name remembered dots with
      | .error e => .error e
      | .ok segment => (expandFrom name remembered (dots + 1) cs).map (segment ++ '.' :: ·)
    else expandRest name none false (c :: cs)

/-- The address that a name stands for when segments are remembered. -/
def expand (name : String) (remembered : List String) : Except Fault String :=
  (expandFrom name remembered 0 name.toList).map String.ofList

/-- The address that a name stands for, with its segments. -/
def ofName (name : String) (remembered : List String) : Except Fault Address :=
  match expand name remembered with
  | .error e => .error e
  | .ok text => (parse text).map (Address.mk text)

end Address

end ScopedConfig
