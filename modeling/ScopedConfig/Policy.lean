/-!
# Write policies

Every scope carries a policy of two independent flags: a final scope refuses to overwrite the
entries it holds, and a closed scope refuses new ones. The four policies form a lattice in which a
transition only moves upward, so a protection once given is never taken back.

Key definitions: `Policy`, `Policy.finalized`, `Policy.closed`, `Policy.isAtLeast`.
Key theorems: `Policy.isAtLeast_iff`, `Policy.finalized_isAtLeast`, `Policy.closed_isAtLeast`,
`Policy.ofName?_name`.
-/

namespace ScopedConfig

/-- What may be written into a scope. -/
structure Policy where
  /-- Entries that exist keep what they hold. -/
  isFinal : Bool
  /-- No entries are added. -/
  isClosed : Bool
  deriving DecidableEq

namespace Policy

/-- Entries may be overwritten and added. -/
def default : Policy := ⟨false, false⟩

/-- Entries may be added and not overwritten. -/
def final : Policy := ⟨true, false⟩

/-- Entries may be overwritten and not added. -/
def sealed : Policy := ⟨false, true⟩

/-- Nothing may be written. -/
def immutable : Policy := ⟨true, true⟩

/-- Entries may be added. -/
def isOpen (p : Policy) : Bool :=
  !p.isClosed

/-- Entries may be overwritten. -/
def isVariable (p : Policy) : Bool :=
  !p.isFinal

/-- Neither kind of write is refused. -/
def permitsAnyWrite (p : Policy) : Bool :=
  p.isOpen && p.isVariable

/-- The same policy with overwriting refused. -/
def finalized (p : Policy) : Policy :=
  { p with isFinal := true }

/-- The same policy with additions refused. -/
def closed (p : Policy) : Policy :=
  { p with isClosed := true }

/-- The first policy refuses every kind of write that the second refuses. -/
def isAtLeast (p q : Policy) : Bool :=
  (p.isFinal || !q.isFinal) && (p.isClosed || !q.isClosed)

/-- The name a policy is reported by. -/
def name (p : Policy) : String :=
  match p.isFinal, p.isClosed with
  | false, false => "DEFAULT"
  | true, false => "FINAL"
  | false, true => "CLOSED"
  | true, true => "IMMUTABLE"

/-- The policy with a name, if there is one. -/
def ofName? (name : String) : Option Policy :=
  if name = "DEFAULT" then some default
  else if name = "FINAL" then some final
  else if name = "CLOSED" then some sealed
  else if name = "IMMUTABLE" then some immutable
  else none

/-! ### Small facts -/

/-- **Strictness compares both flags.** -/
theorem isAtLeast_iff (p q : Policy) :
    p.isAtLeast q = true ↔ (q.isFinal = true → p.isFinal = true) ∧
      (q.isClosed = true → p.isClosed = true) := by
  rcases p with ⟨_ | _, _ | _⟩ <;> rcases q with ⟨_ | _, _ | _⟩ <;> simp [isAtLeast]

theorem finalized_isAtLeast (p : Policy) : p.finalized.isAtLeast p = true := by
  rw [isAtLeast_iff]
  exact ⟨fun _ => rfl, id⟩

theorem closed_isAtLeast (p : Policy) : p.closed.isAtLeast p = true := by
  rw [isAtLeast_iff]
  exact ⟨id, fun _ => rfl⟩

/-- A policy is known by its name. -/
theorem ofName?_name (p : Policy) : ofName? p.name = some p := by
  rcases p with ⟨_ | _, _ | _⟩ <;> rfl

end Policy

end ScopedConfig
