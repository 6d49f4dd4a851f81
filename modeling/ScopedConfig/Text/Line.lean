import ScopedConfig.Text.Pieces

/-!
# Lines

A line ends at a line feed, and one carriage return in front of that line feed is dropped. The text
after the last line feed is a line only if it is not empty, and a carriage return at its end is
kept.

Key definitions: `lines`.
-/

namespace ScopedConfig.Text

/-- The lines of a text. -/
def lines : List Char → List (List Char)
  | [] => []
  | c :: cs =>
    if c = '\n' then [] :: lines cs
    else if c = '\r' ∧ cs.head? = some '\n' then lines cs
    else consHead c (lines cs)

end ScopedConfig.Text
