-- SUMMARY: How a message quotes a single character.
import Esm.Text.Visible

/-!
# Quoted characters

A character stands between single quotes. NUL, tab, the line ends, the quote and the backslash have
short escapes; a character that does not show on its own is written as its code point in
hexadecimal.
-/

namespace Esm.Text

/-- The lowercase hexadecimal digits of a number, without leading zeros. -/
def hexDigits (n : Nat) : List Char := Nat.toDigits 16 n

/-- The escape for a character inside quotes, or the character itself. -/
def escapeChar (c : Char) : List Char :=
  if c = '\x00' then ['\\', '0']
  else if c = '\t' then ['\\', 't']
  else if c = '\n' then ['\\', 'n']
  else if c = '\r' then ['\\', 'r']
  else if c = '\'' then ['\\', '\'']
  else if c = '\\' then ['\\', '\\']
  else if isVisible c then [c]
  else ['\\', 'u', '\x7b'] ++ hexDigits c.toNat ++ ['\x7d']

/-- A character between single quotes. -/
def quoteChar (c : Char) : String := String.ofList ('\'' :: escapeChar c ++ ['\''])

end Esm.Text
