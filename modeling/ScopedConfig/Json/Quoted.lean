import ScopedConfig.Text.Hex

/-!
# JSON strings

A text is written between double quotes. Double quote and backslash get a backslash in front,
backspace, tab, line feed, form feed and carriage return have a letter each, and the other
characters below U+0020 are written `\u` with four digits. All else stays as it is, so a written
text holds no line feed.

Key definitions: `Json.quoted`.
-/

namespace ScopedConfig.Json

/-- The written form of one character. -/
def quotedChar (c : Char) : List Char :=
  if c = '"' then ['\\', '"']
  else if c = '\\' then ['\\', '\\']
  else if c.toNat = 0x08 then ['\\', 'b']
  else if c = '\t' then ['\\', 't']
  else if c = '\n' then ['\\', 'n']
  else if c.toNat = 0x0C then ['\\', 'f']
  else if c = '\r' then ['\\', 'r']
  else if c.toNat < 0x20 then '\\' :: 'u' :: Text.hex4 c.toNat
  else [c]

/-- The characters of a text as a JSON string. -/
def quotedChars (cs : List Char) : List Char :=
  '"' :: cs.flatMap quotedChar ++ ['"']

/-- A text as a JSON string. -/
def quoted (s : String) : String :=
  String.ofList (quotedChars s.toList)

end ScopedConfig.Json
