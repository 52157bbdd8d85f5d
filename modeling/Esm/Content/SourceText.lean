-- SUMMARY: Text that can be handed to the compiler.
import Esm.Encoding.Format

/-!
# Source texts

A source text holds no NUL, since in memory one NUL marks its end.
-/

namespace Esm

/-- Text without NUL. -/
structure SourceText where
  text : String
  noNul : '\x00' ∉ text.toList

namespace SourceText

/-- Refuses text that holds a NUL. -/
def ofString? (text : String) : Option SourceText :=
  if h : '\x00' ∉ text.toList then some ⟨text, h⟩ else none

/-- The bytes in memory, the closing NUL included. -/
def bytes (s : SourceText) : List UInt8 := Encoding.utf8 s.text ++ [0]

/-- The length in bytes, the closing NUL left out. -/
def length (s : SourceText) : Nat := s.text.utf8ByteSize

end SourceText

end Esm
