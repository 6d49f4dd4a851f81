import ScopedConfig.Diagnostic
import ScopedConfig.Document.Statement
import ScopedConfig.Text.Line
import ScopedConfig.Value.Json
import ScopedConfig.Value.Literal
import ScopedConfig.Workspace.Operation

/-!
# Running a document

A document is run line by line in a fresh workspace. Each query adds one line to the output; the
first fault ends the run, its place is the whole line it arose in, and the output is lost.

Key definitions: `Statement.operation`, `Statement.execute`, `Document.runLines`, `Document.run`.
-/

namespace ScopedConfig

namespace Statement

/-- What a statement asks of the workspace. The literal of an assignment is read first. -/
def operation : Statement → Except Fault (Operation Value)
  | scope path => .ok (.createNamed path)
  | set path literal => (Value.ofLiteral literal).map (.assign path)
  | assignLocal key literal => (Value.ofLiteral literal).map (.assignLocal key)
  | get path => .ok (.lookUp path)
  | finalize path? => .ok (.finalize path?)
  | close path? => .ok (.close path?)
  | policy path? => .ok (.policy path?)

/-- The line that a reply to a statement prints, if it prints one. -/
def output (statement : Statement) (w : Workspace Value) : Reply Value → Option String
  | .done => none
  | .policy p => some ("POLICY:" ++ p.name)
  | .found (.value v) => some ("VALUE:" ++ v.toJson)
  | .found (.scope id) => some ("SCOPE:" ++ w.arena.describe id)
  | .found .nothing =>
    match statement with
    | get path => some ("NOT_FOUND:" ++ path)
    | _ => none

/-- Does what a statement asks, and gives the line it prints. -/
def execute (statement : Statement) (w : Workspace Value) :
    Except Fault (Option String × Workspace Value) :=
  match statement.operation with
  | .error e => .error e
  | .ok op =>
    match w.apply op with
    | (.error e, _) => .error e
    | (.ok reply, w) => .ok (statement.output w reply, w)

end Statement

/-- A document with the name it is reported by. -/
structure Document where
  name : String
  source : String
  deriving DecidableEq

namespace Document

/-- Runs one line. -/
def runLine (line : List Char) (w : Workspace Value) :
    Except Fault (Option String × Workspace Value) :=
  match Statement.parseChars line with
  | .error e => .error e
  | .ok none => .ok (none, w)
  | .ok (some statement) => statement.execute w

/-- Runs lines, the first of which has a number. -/
def runLines (number : Nat) (w : Workspace Value) :
    List (List Char) → Except Diagnostic (List String × Workspace Value)
  | [] => .ok ([], w)
  | line :: rest =>
    match runLine line w with
    | .error e => .error (e.report.withSpan (.ofLine number line.length))
    | .ok (printed, w) =>
      (runLines (number + 1) w rest).map fun (out, w) => (printed.toList ++ out, w)

/-- Runs a source in a fresh workspace, and leaves the open scope at its end. -/
def runSource (source : String) : Except Diagnostic (List String) :=
  match runLines 1 .empty (Text.lines source.toList) with
  | .error d => .error d
  | .ok (out, w) =>
    match w.popAnonymous with
    | .error e => .error e.report
    | .ok _ => .ok out

/-- Runs a document. -/
def run (d : Document) : Except Diagnostic (List String) :=
  runSource d.source

/-- Runs documents one after the other, each in a workspace of its own and under a line with its
name. The first fault ends them all, and its message names the document. -/
def runAll : List Document → Except Diagnostic (List String)
  | [] => .ok []
  | d :: rest =>
    match d.run with
    | .error e => .error (e.inDocument d.name)
    | .ok lines => (runAll rest).map fun out => ("DOCUMENT:" ++ d.name) :: lines ++ out

end Document

end ScopedConfig
