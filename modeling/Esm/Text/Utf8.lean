-- SUMMARY: Reading UTF-8, and where bytes stop being UTF-8.
import Esm.Encoding.Reader

/-!
# UTF-8

Bytes that are no text are faulted at the first character that is malformed: either its bytes cannot
belong together, and then the fault tells how many of them could still begin a character, or the
bytes end within it.
-/

namespace Esm.Text

/-- Where bytes stop being UTF-8. -/
inductive Utf8Fault where
  | invalid (length index : Nat)
  | incomplete (index : Nat)
deriving DecidableEq, Repr

def Utf8Fault.message : Utf8Fault → String
  | .invalid length index =>
    "invalid utf-8 sequence of " ++ toString length ++ " bytes from index " ++ toString index
  | .incomplete index => "incomplete utf-8 byte sequence from index " ++ toString index

/-- The bytes that may follow the first byte of a character: how many, and the range of the first of
them. A byte that starts no character has none. -/
def followers (first : UInt8) : Option (Nat × UInt8 × UInt8) :=
  if first < 0x80 then some (0, 0x80, 0xBF)
  else if first < 0xC2 then none
  else if first < 0xE0 then some (1, 0x80, 0xBF)
  else if first = 0xE0 then some (2, 0xA0, 0xBF)
  else if first = 0xED then some (2, 0x80, 0x9F)
  else if first < 0xF0 then some (2, 0x80, 0xBF)
  else if first = 0xF0 then some (3, 0x90, 0xBF)
  else if first < 0xF4 then some (3, 0x80, 0xBF)
  else if first = 0xF4 then some (3, 0x80, 0x8F)
  else none

/-- Check bytes inside the character that started at `start`. Of its bytes `left` are still to come,
`taken` have been taken, and the next one lies between `low` and `high`. -/
def utf8FaultIn (start index : Nat) : (left taken : Nat) → (low high : UInt8) → List UInt8 →
    Option Utf8Fault
  | 0, _, _, _, [] => none
  | 0, _, _, _, b :: rest =>
    match followers b with
    | none => some (.invalid 1 index)
    | some (left, low, high) => utf8FaultIn index (index + 1) left 1 low high rest
  | _ + 1, _, _, _, [] => some (.incomplete start)
  | left + 1, taken, low, high, b :: rest =>
    if low ≤ b && b ≤ high then utf8FaultIn start (index + 1) left (taken + 1) 0x80 0xBF rest
    else some (.invalid taken start)

/-- The first fault of bytes. -/
def utf8Fault (bytes : List UInt8) : Option Utf8Fault := utf8FaultIn 0 0 0 0 0 0 bytes

/-- The text of bytes. -/
def decodeUtf8 (bytes : List UInt8) : Except Utf8Fault String :=
  match Encoding.ofUtf8? bytes with
  | some s => .ok s
  | none => .error ((utf8Fault bytes).getD (.incomplete bytes.length))

end Esm.Text
