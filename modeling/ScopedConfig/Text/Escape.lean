import ScopedConfig.Text.Hex

/-!
# Backslash escapes

Escaping makes a text safe inside either quote and on one line: backslash and the two quotes get a
backslash in front, line feed, carriage return and tab have a letter each, and the other control
characters below U+0020 and U+007F are written `\u` with four digits. Unescaping resolves these and
keeps every escape it does not know as it stands.

Four characters always belong to `\u`. They may also be a plus sign and three digits, which name
the same character as the three digits alone; four characters that name none are kept, and so is
what follows a `\u` with fewer than four characters behind it.

Key definitions: `escape`, `unescape`.
-/

namespace ScopedConfig.Text

/-- The escaped form of one character. -/
def escapeChar (c : Char) : List Char :=
  if c = '\\' then ['\\', '\\']
  else if c = '"' then ['\\', '"']
  else if c = '\'' then ['\\', '\'']
  else if c = '\n' then ['\\', 'n']
  else if c = '\r' then ['\\', 'r']
  else if c = '\t' then ['\\', 't']
  else if c.toNat < 0x20 ∨ c.toNat = 0x7F then '\\' :: 'u' :: hex4 c.toNat
  else [c]

/-- Escapes every character of a text. -/
def escape (cs : List Char) : List Char :=
  cs.flatMap escapeChar

/-- The character that the four characters after `\u` name: four digits, or a plus sign and
three. -/
def unicodeEscape? (a b c d : Char) : Option Char :=
  (ofHex? (if a = '+' then [b, c, d] else [a, b, c, d])).bind ofCodePoint?

/-- What a backslash and one character, not `u`, stand for. An unknown pair stands for itself. -/
def resolveEscape (c : Char) : List Char :=
  if c = '\\' then ['\\']
  else if c = '"' then ['"']
  else if c = '\'' then ['\'']
  else if c = 'n' then ['\n']
  else if c = 'r' then ['\r']
  else if c = 't' then ['\t']
  else ['\\', c]

/-- Resolves the escapes of a text. -/
def unescape : List Char → List Char
  | [] => []
  | '\\' :: 'u' :: a :: b :: c :: d :: cs =>
    match unicodeEscape? a b c d with
    | some x => x :: unescape cs
    | none => '\\' :: 'u' :: a :: b :: c :: d :: unescape cs
  | '\\' :: 'u' :: cs => '\\' :: 'u' :: cs
  | '\\' :: c :: cs => resolveEscape c ++ unescape cs
  | c :: cs => c :: unescape cs

end ScopedConfig.Text
