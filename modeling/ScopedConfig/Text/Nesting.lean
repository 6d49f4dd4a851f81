import ScopedConfig.Text.Quote

/-!
# Nesting

A scan of a list keeps track of where it stands: inside which quote, whether the character before
was a backslash that takes the next one with it, and how many brackets and braces are open. Outside
quotes a closing bracket closes the last open one whatever its kind, and one too many closes
nothing.

Key definitions: `Nesting`, `Nesting.after`, `splitItems`.
Key theorems: `length_le_of_mem_splitItems`.
-/

namespace ScopedConfig.Text

/-- Where a scan stands. -/
structure Nesting where
  /-- The character that closes the quote that is open. -/
  quote : Option Char
  /-- The next character of the quote belongs to a backslash. -/
  isEscaped : Bool
  /-- How many brackets and braces are open. -/
  depth : Nat
  deriving DecidableEq

namespace Nesting

/-- Outside everything. -/
def outside : Nesting := ⟨none, false, 0⟩

/-- Where the scan stands after one more character. -/
def after (s : Nesting) (c : Char) : Nesting :=
  match s.quote with
  | some q =>
    if s.isEscaped then { s with isEscaped := false }
    else if c = '\\' then { s with isEscaped := true }
    else if c = q then { s with quote := none }
    else s
  | none =>
    if isQuote c then { s with quote := some c }
    else if c = '[' ∨ c = '{' then { s with depth := s.depth + 1 }
    else if c = ']' ∨ c = '}' then { s with depth := s.depth - 1 }
    else s

end Nesting

/-- Cuts a text at the commas outside quotes and brackets. There is always at least one item. -/
def splitItems (s : Nesting) : List Char → List (List Char)
  | [] => [[]]
  | c :: cs =>
    if s.quote = none ∧ s.depth = 0 ∧ c = ',' then [] :: splitItems s cs
    else consHead c (splitItems (s.after c) cs)

/-! ### Small facts -/

theorem length_le_of_mem_consHead {c : Char} {ps : List (List Char)} {n : Nat}
    (h : ∀ p ∈ ps, p.length ≤ n) {p : List Char} (hp : p ∈ consHead c ps) : p.length ≤ n + 1 := by
  cases ps with
  | nil =>
    simp only [consHead, List.mem_singleton] at hp
    simp [hp]
  | cons q qs =>
    simp only [consHead, List.mem_cons] at hp
    rcases hp with rfl | hp
    · simpa using h q (List.mem_cons_self ..)
    · exact Nat.le_succ_of_le (h p (List.mem_cons_of_mem _ hp))

theorem length_le_of_mem_splitItems : ∀ (cs : List Char) (s : Nesting) {p : List Char},
    p ∈ splitItems s cs → p.length ≤ cs.length
  | [], _, p, hp => by
    simp only [splitItems, List.mem_singleton] at hp
    simp [hp]
  | c :: cs, s, p, hp => by
    unfold splitItems at hp
    split at hp
    · rcases List.mem_cons.1 hp with rfl | hp
      · simp
      · exact Nat.le_succ_of_le (length_le_of_mem_splitItems cs _ hp)
    · exact length_le_of_mem_consHead (fun q hq => length_le_of_mem_splitItems cs _ hq) hp

end ScopedConfig.Text
