import ScopedConfig.Text.Hex
import ScopedConfig.Text.Unseen

/-!
# Texts shown in messages

A message that shows a stored text puts it in double quotes and writes out what would not be seen:
backslash and double quote get a backslash in front, the null character, tab, line feed and
carriage return have a letter each, and any other character that is not seen is its code point in
hexadecimal digits between braces. Single quotes and all else stay.

Key definitions: `shown`.
-/

namespace ScopedConfig.Text

/-- The shown form of one character. -/
def shownChar (c : Char) : List Char :=
  if c = '\\' then ['\\', '\\']
  else if c = '"' then ['\\', '"']
  else if c.toNat = 0 then ['\\', '0']
  else if c = '\t' then ['\\', 't']
  else if c = '\n' then ['\\', 'n']
  else if c = '\r' then ['\\', 'r']
  else if isUnseen c then ['\\', 'u', '{'] ++ hexDigits c.toNat ++ ['}']
  else [c]

/-- The text in double quotes, with every character in its shown form. -/
def shown (s : String) : String :=
  String.ofList ('"' :: s.toList.flatMap shownChar ++ ['"'])

end ScopedConfig.Text
