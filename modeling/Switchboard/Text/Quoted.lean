import Switchboard.Text.Numeral
import Switchboard.Text.Unprinted

/-!
# Quoted texts in messages

A message that names a text shows it between quotes, with escapes for the characters that could
not be seen or told apart: control characters, other characters that print nothing, and marks
that would attach to what stands before them. This is the notation for people to read; it is not
JSON.
-/

namespace Switchboard.Text

/-- An escape that gives the code point. -/
def codePointEscape (c : Char) : List Char :=
  ['\\', 'u', '\x7b'] ++ Nat.toDigits 16 c.toNat ++ ['\x7d']

/-- How a character is shown in a quoted text. -/
def quoteChar (c : Char) : List Char :=
  if c = '\x00' then ['\\', '0']
  else if c = '\t' then ['\\', 't']
  else if c = '\n' then ['\\', 'n']
  else if c = '\r' then ['\\', 'r']
  else if c = '"' then ['\\', '"']
  else if c = '\\' then ['\\', '\\']
  else if (isExtender c && !isSoundMark c) || isUnprinted c then codePointEscape c
  else [c]

/-- A text between quotes with escapes for what cannot be seen. -/
def quoted (s : String) : String :=
  String.ofList ('"' :: (s.toList.flatMap quoteChar ++ ['"']))

end Switchboard.Text
