import ScopedConfig.Json.Number
import ScopedConfig.Text.Hex

/-!
# Reading JSON

Each reader takes one datum off the front of a text and gives the rest. Lists and objects may be
nested to a fixed depth, which bounds the recursion; the items on one level are at most as many as
the characters left. A text is refused either because it is no JSON or because what it says has no
place in the type that is asked for.

Key definitions: `Json.Refusal`, `Json.datum?`, `Json.string?`.
-/

namespace ScopedConfig.Json

open Text

/-- Why a text gives nothing. -/
inductive Refusal
  /-- The text is no JSON, or a number in it is out of range. -/
  | notJson
  /-- The datum has another shape than the type. -/
  | otherShape
  deriving DecidableEq

/-- The four blanks of JSON. -/
def isSpace (c : Char) : Bool :=
  c == ' ' || c == '\n' || c == '\t' || c == '\r'

/-- Drops the blanks in front. -/
def skip (cs : List Char) : List Char :=
  cs.dropWhile isSpace

/-! ### Strings -/

/-- The character that a backslash and a letter stand for. -/
def shortEscape? (c : Char) : Option Char :=
  if c = '"' ∨ c = '\\' ∨ c = '/' then some c
  else if c = 'b' then some (Char.ofNat 0x08)
  else if c = 'f' then some (Char.ofNat 0x0C)
  else if c = 'n' then some '\n'
  else if c = 'r' then some '\r'
  else if c = 't' then some '\t'
  else none

/-- The first half of a pair of surrogates. -/
def isHighSurrogate (n : Nat) : Bool :=
  decide (0xD800 ≤ n) && decide (n ≤ 0xDBFF)

/-- The second half of a pair of surrogates. -/
def isLowSurrogate (n : Nat) : Bool :=
  decide (0xDC00 ≤ n) && decide (n ≤ 0xDFFF)

/-- The character that a pair of surrogates stands for. -/
def ofSurrogates (high low : Nat) : Char :=
  Char.ofNat ((high - 0xD800) * 1024 + (low - 0xDC00) + 0x10000)

/-- Puts a character in front of a text that was read. -/
def withChar (c : Char) : Option (List Char × List Char) → Option (List Char × List Char) :=
  Option.map fun (text, rest) => (c :: text, rest)

/-- Reads a string behind its opening quote. A surrogate must have its other half behind it. -/
def stringTail? : List Char → Option (List Char × List Char)
  | [] => none
  | '"' :: cs => some ([], cs)
  | '\\' :: 'u' :: a :: b :: c :: d :: cs =>
    match ofHex? [a, b, c, d] with
    | none => none
    | some n =>
      match ofCodePoint? n with
      | some x => withChar x (stringTail? cs)
      | none =>
        match cs with
        | '\\' :: 'u' :: e :: f :: g :: h :: rest =>
          match (ofHex? [e, f, g, h]).filter fun m => isHighSurrogate n && isLowSurrogate m with
          | some m => withChar (ofSurrogates n m) (stringTail? rest)
          | none => none
        | _ => none
  | '\\' :: c :: cs =>
    match shortEscape? c with
    | some x => withChar x (stringTail? cs)
    | none => none
  | c :: cs => if c.toNat < 0x20 then none else withChar c (stringTail? cs)

/-- Reads a string. -/
def string? : List Char → Option (String × List Char)
  | [] => none
  | c :: cs =>
    if c = '"' then (stringTail? cs).map fun (text, rest) => (String.ofList text, rest) else none

/-! ### Data -/

/-- Takes a word off the front. -/
def word? (word : String) (cs : List Char) : Option (List Char) :=
  if word.toList.isPrefixOf cs then some (cs.drop word.toList.length) else none

/-- Reads a datum that is neither a list nor an object. -/
def scalar? (cs : List Char) : Option (Datum × List Char) :=
  match cs with
  | [] => none
  | c :: _ =>
    if c = '"' then (string? cs).map fun (s, rest) => (.string s, rest)
    else if c = 'n' then (word? "null" cs).map (.null, ·)
    else if c = 't' then (word? "true" cs).map (.bool true, ·)
    else if c = 'f' then (word? "false" cs).map (.bool false, ·)
    else number? cs

/-- Reads one or more items with a comma between them, up to a closing character. -/
def items? {α : Type} (item : List Char → Option (α × List Char)) (close : Char) :
    (limit : Nat) → List Char → Option (List α × List Char)
  | 0, _ => none
  | limit + 1, cs =>
    (item (skip cs)).bind fun (x, rest) =>
      match skip rest with
      | [] => none
      | c :: behind =>
        if c = close then some ([x], behind)
        else if c = ',' then
          (items? item close limit behind).map fun (xs, rest) => (x :: xs, rest)
        else none

/-- Reads items behind an opening character, possibly none. -/
def group? {α : Type} (item : List Char → Option (α × List Char)) (close : Char)
    (cs : List Char) : Option (List α × List Char) :=
  match skip cs with
  | [] => none
  | c :: rest => if c = close then some ([], rest) else items? item close (cs.length + 1) cs

/-- Reads a key, a colon and what stands behind it. -/
def member? {α : Type} (item : List Char → Option (α × List Char)) (cs : List Char) :
    Option ((String × α) × List Char) :=
  (string? cs).bind fun (key, rest) =>
    match skip rest with
    | [] => none
    | c :: rest =>
      if c = ':' then (item (skip rest)).map fun (x, rest) => ((key, x), rest) else none

/-- Reads a datum with lists and objects nested to a depth. -/
def datum? : (depth : Nat) → List Char → Option (Datum × List Char)
  | 0, cs => scalar? cs
  | depth + 1, cs =>
    match cs with
    | [] => none
    | c :: rest =>
      if c = '[' then
        (group? (datum? depth) ']' rest).map fun (items, rest) => (.list items, rest)
      else if c = '{' then
        (group? (member? (datum? depth)) '}' rest).map fun (members, rest) =>
          (.object members, rest)
      else scalar? cs

/-- How deep lists and objects may be nested. -/
def maxDepth : Nat := 127

end ScopedConfig.Json

namespace ScopedConfig

open Json

/-- The value that a JSON text gives. Its shape is looked at once the datum is read, and what
stands behind the datum after that. -/
def Value.ofJson (text : String) : Except Refusal Value :=
  match datum? maxDepth (skip text.toList) with
  | none => .error .notJson
  | some (d, rest) =>
    match d.value? with
    | none => .error .otherShape
    | some v => if skip rest = [] then .ok v else .error .notJson

end ScopedConfig
