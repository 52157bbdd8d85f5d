-- SUMMARY: The escapes resolved in the specifiers and names that string literals give.

/-!
# Escapes

A backslash followed by `n`, `t`, `r` or `0` stands for a control character; before any other
character it stands for that character, and at the very end for nothing.
-/

namespace Esm.Text

/-- The character that a backslash and this letter stand for. -/
def unescapeChar (c : Char) : Char :=
  if c = 'n' then '\n' else if c = 't' then '\t' else if c = 'r' then '\r'
  else if c = '0' then '\x00' else c

/-- The text that a literal's inside stands for. -/
def unescape : List Char → List Char
  | [] => []
  | '\\' :: c :: rest => unescapeChar c :: unescape rest
  | '\\' :: [] => []
  | c :: rest => c :: unescape rest

end Esm.Text
