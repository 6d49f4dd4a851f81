import ScopedConfig.Fault
import ScopedConfig.Json.Quoted

/-!
# Diagnostics

A fault as it is reported: kind, code and message as texts, and the place in the source once one is
known. The first place that is attached stays.

Key definitions: `Span`, `Diagnostic`, `Diagnostic.withSpan`, `Fault.report`.
Key theorems: `Diagnostic.span_withSpan`.
-/

namespace ScopedConfig

/-- A place in a source; lines and columns count from one. -/
structure Location where
  line : Nat
  column : Nat
  deriving DecidableEq

/-- A stretch of a source. -/
structure Span where
  start : Location
  stop : Location
  deriving DecidableEq

namespace Span

/-- The place of what has no source. -/
def synthetic : Span :=
  ⟨⟨1, 1⟩, ⟨1, 1⟩⟩

/-- A whole line that is `width` characters wide. -/
def ofLine (line width : Nat) : Span :=
  ⟨⟨line, 1⟩, ⟨line, width + 1⟩⟩

end Span

/-- A location as JSON text. -/
def Location.toJson (l : Location) : String :=
  "\x7b\"line\":" ++ toString l.line ++ ",\"column\":" ++ toString l.column ++ "\x7d"

/-- A span as JSON text. -/
def Span.toJson (s : Span) : String :=
  "\x7b\"start\":" ++ s.start.toJson ++ ",\"end\":" ++ s.stop.toJson ++ "\x7d"

/-- A reported fault. -/
structure Diagnostic where
  kind : Kind
  code : String
  message : String
  span? : Option Span
  deriving DecidableEq

namespace Diagnostic

/-- A diagnostic without a place. -/
def of (kind : Kind) (code message : String) : Diagnostic :=
  ⟨kind, code, message, none⟩

/-- Attaches a place, keeping one that is attached already. -/
def withSpan (d : Diagnostic) (span : Span) : Diagnostic :=
  { d with span? := d.span?.or (some span) }

/-- Names the document that the diagnostic belongs to in front of its message. -/
def inDocument (d : Diagnostic) (name : String) : Diagnostic :=
  { d with message := name ++ ": " ++ d.message }

/-- Code and message on one line. -/
def display (d : Diagnostic) : String :=
  d.code ++ ": " ++ d.message

/-- The first place stays. -/
theorem span_withSpan (d : Diagnostic) (span : Span) :
    (d.withSpan span).span? = some (d.span?.getD span) := by
  cases h : d.span? <;> simp [withSpan, h]

end Diagnostic

/-- A fault as a diagnostic, its place not yet known. -/
def Fault.report (f : Fault) : Diagnostic :=
  .of f.kind f.code.name f.message

end ScopedConfig
