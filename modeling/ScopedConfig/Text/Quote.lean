import ScopedConfig.Text.Pieces

/-!
# Quotes

A quote is opened by `'` or `"` and runs to the next occurrence of the same character, or to the
end of the text. Inside it no other character has a meaning, a backslash included. A scan carries
the character that closes the quote it stands in, and nothing outside quotes.

Key definitions: `isQuote`, `quoteAfter`, `splitOutside`, `cutOutside?`, `unquote`.
-/

namespace ScopedConfig.Text

/-- The two characters that open a quote. -/
def isQuote (c : Char) : Bool :=
  c == '\'' || c == '"'

/-- The quote that is open after one more character: a quote character opens one when none is
open, and only the character that opened it closes it. -/
def quoteAfter : Option Char → Char → Option Char
  | some q, c => if c = q then none else some q
  | none, c => if isQuote c then some c else none

/-- Cuts the text at every `mark` outside quotes. The marks are dropped and the quotes kept; there
is always at least one piece. -/
def splitOutside (mark : Char) : Option Char → List Char → List (List Char)
  | _, [] => [[]]
  | q, c :: cs =>
    if q = none ∧ c = mark then [] :: splitOutside mark none cs
    else consHead c (splitOutside mark (quoteAfter q c) cs)

/-- Cuts the text at the first `mark` outside quotes, if there is one. -/
def cutOutside? (mark : Char) : Option Char → List Char → Option (List Char × List Char)
  | _, [] => none
  | q, c :: cs =>
    if q = none ∧ c = mark then some ([], cs)
    else (cutOutside? mark (quoteAfter q c) cs).map fun (left, right) => (c :: left, right)

/-- The text inside one pair of surrounding quotes, if the text starts and ends with the same
quote character. -/
def quoted? (cs : List Char) : Option (List Char) :=
  enclosed? '\'' '\'' cs <|> enclosed? '"' '"' cs

/-- Removes one pair of surrounding quotes, if there is one. -/
def unquote (cs : List Char) : List Char :=
  (quoted? cs).getD cs

/-! ### Small facts -/

theorem splitOutside_ne_nil (mark : Char) : ∀ (q : Option Char) (cs : List Char),
    splitOutside mark q cs ≠ []
  | _, [] => by simp [splitOutside]
  | q, c :: cs => by
    unfold splitOutside
    split
    · simp
    · exact consHead_ne_nil _ _

theorem quoted?_of_head {c : Char} {cs : List Char} (h : cs.head? = some c)
    (hc : isQuote c = false) : quoted? cs = none := by
  have hhead : ∀ q, isQuote q = true → cs.head? ≠ some q := by
    rintro q hq hqc
    obtain rfl := Option.some.inj (h.symm.trans hqc)
    exact absurd hq (by simp [hc])
  rw [quoted?, enclosed?_of_head_ne (hhead '\'' rfl), enclosed?_of_head_ne (hhead '"' rfl)]
  rfl

end ScopedConfig.Text
