-- SUMMARY: Percent-encoding in web addresses.
import Esm.Encoding.Format

/-!
# Percent-encoding

Each part of an address has a set of ASCII characters that it may not hold as themselves. These, the
controls and every character outside ASCII are written as the bytes of their UTF-8 form, each a
percent sign and two uppercase hexadecimal digits. A percent sign that is there already stays.
-/

namespace Esm.Url

/-- Whether a character is always encoded. -/
def isOpaque (c : Char) : Bool := c.toNat < 0x20 || 0x7F ≤ c.toNat

/-- The characters encoded in a fragment. -/
def encodedInFragment (c : Char) : Bool := isOpaque c || [' ', '"', '<', '>', '\x60'].contains c

/-- The characters encoded in a path. -/
def encodedInPath (c : Char) : Bool :=
  encodedInFragment c || ['#', '?', '\x7b', '\x7d'].contains c

/-- The characters encoded in a user name or password. -/
def encodedInUserinfo (c : Char) : Bool :=
  encodedInPath c || ['/', ':', ';', '=', '@', '[', '\\', ']', '^', '|'].contains c

/-- The characters encoded in a query. -/
def encodedInQuery (c : Char) : Bool :=
  isOpaque c || [' ', '"', '#', '<', '>', '\''].contains c

/-- An uppercase hexadecimal digit. -/
def hexDigit (n : Nat) : Char := if n < 10 then Char.ofNat (48 + n) else Char.ofNat (55 + n)

/-- The value of a hexadecimal digit. -/
def hexValue? (c : Char) : Option Nat :=
  if c.isDigit then some (c.toNat - 48)
  else if 'A' ≤ c && c ≤ 'F' then some (c.toNat - 55)
  else if 'a' ≤ c && c ≤ 'f' then some (c.toNat - 87)
  else none

/-- A byte as a percent sign and two digits. -/
def encodeByte (b : UInt8) : List Char := ['%', hexDigit (b.toNat / 16), hexDigit (b.toNat % 16)]

/-- Encode the characters of a set. -/
def encode (encoded : Char → Bool) (cs : List Char) : List Char :=
  cs.flatMap fun c =>
    if encoded c then (Encoding.utf8 (String.singleton c)).flatMap encodeByte else [c]

/-- The bytes that a text stands for. -/
def decode : List Char → List UInt8
  | [] => []
  | '%' :: a :: b :: rest =>
    match hexValue? a, hexValue? b with
    | some high, some low => UInt8.ofNat (16 * high + low) :: decode rest
    | _, _ => Encoding.utf8 "%" ++ decode (a :: b :: rest)
  | c :: rest => Encoding.utf8 (String.singleton c) ++ decode rest

end Esm.Url
