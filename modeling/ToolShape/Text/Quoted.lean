import ToolShape.Text.Printable

/-!
# Quoted text in messages

A message that quotes a text shows each character as itself if it prints, and as an escape
otherwise: the usual two-character escapes, or the code point in hexadecimal between braces.
-/

set_option autoImplicit false

namespace ToolShape.Text

/-- The lowercase hexadecimal digits of a number, without leading zeros. -/
def hexDigits (n : Nat) : List Char := Nat.toDigits 16 n

/-- How a character is shown between quotes. -/
def showChar (c : Char) : List Char :=
  if c = '\x00' then ['\\', '0']
  else if c = '\t' then ['\\', 't']
  else if c = '\r' then ['\\', 'r']
  else if c = '\n' then ['\\', 'n']
  else if c = '\\' then ['\\', '\\']
  else if c = '"' then ['\\', '"']
  else if isExtending c || isHidden c then ['\\', 'u', '\x7b'] ++ hexDigits c.toNat ++ ['\x7d']
  else [c]

/-- A text between quotes. -/
def quoted (s : String) : String :=
  String.ofList ('"' :: s.toList.flatMap showChar ++ ['"'])

end ToolShape.Text
