import ScopedConfig.Fault
import ScopedConfig.Text.Blank
import ScopedConfig.Text.Quote

/-!
# Statements

A line of a document is blank, a comment that starts with `#`, or a statement: a word and what it
is about. The two assignments are cut at the first `=` outside quotes into a target, which may not
be empty, and a literal.

Key definitions: `Statement`, `Statement.parse`.
-/

namespace ScopedConfig

open Text

/-- What a line of a document asks for. -/
inductive Statement
  /-- Create a scope. -/
  | scope (path : String)
  /-- Assign to a path. -/
  | set (path literal : String)
  /-- Assign to a key of the scope that is open. -/
  | assignLocal (key literal : String)
  /-- Print what a path leads to. -/
  | get (path : String)
  /-- Refuse overwriting. -/
  | finalize (path? : Option String)
  /-- Refuse additions. -/
  | close (path? : Option String)
  /-- Print a policy. -/
  | policy (path? : Option String)
  deriving DecidableEq

namespace Statement

/-- The target and the literal of an assignment, whose words behind the first are given; the line
is for the wording of faults. -/
def cutAssignment (line : String) (words : List Char) : Except Fault (String × String) :=
  match cutOutside? '=' none words with
  | none => .error (.missingAssignment line)
  | some (left, right) =>
    let target := trim left
    if target = [] then .error (.missingTarget line)
    else .ok (String.ofList target, String.ofList (trim right))

/-- The path that a statement names, if it names one. -/
def optional (words : List Char) : Option String :=
  if words = [] then none else some (String.ofList words)

/-- The statement of a trimmed line that starts with a word. -/
def ofWords (line word : String) (words : List Char) : Except Fault Statement :=
  if word = "scope" then .ok (.scope (String.ofList words))
  else if word = "get" then .ok (.get (String.ofList words))
  else if word = "set" then (cutAssignment line words).map fun (t, l) => .set t l
  else if word = "let" then (cutAssignment line words).map fun (t, l) => .assignLocal t l
  else if word = "final" then .ok (.finalize (optional words))
  else if word = "close" then .ok (.close (optional words))
  else if word = "policy" then .ok (.policy (optional words))
  else .error (.unknownStatement word line)

/-- Reads a line. A blank line and a comment hold no statement. -/
def parseChars (line : List Char) : Except Fault (Option Statement) :=
  let trimmed := trim line
  if trimmed = [] ∨ trimmed.head? = some '#' then .ok none
  else
    (ofWords (String.ofList trimmed) (String.ofList (firstWord trimmed))
      (trim (afterFirstWord trimmed))).map some

/-- Reads a line. -/
def parse (line : String) : Except Fault (Option Statement) :=
  parseChars line.toList

end Statement

end ScopedConfig
