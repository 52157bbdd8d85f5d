-- SUMMARY: The serialized form of a compiled module.
import Esm.Encoding.Word
import Esm.Module

/-!
# Serialized modules

A serialized module is a mark and a version, its name, its requests, exports and star exports, its
atoms and its instructions. Counts, lengths and atom indices are words in the chosen byte order; a
string is its length in bytes and its UTF-8 bytes, a list its count and its elements, an instruction
the tag of its kind and its atom. Nothing in the bytes tells which order was chosen.
-/

namespace Esm.Encoding

/-- The bytes that every serialized module starts with: `tjsc`. -/
def mark : List UInt8 := [0x74, 0x6A, 0x73, 0x63]

/-- The version of the format. -/
def version : UInt8 := 1

/-- The UTF-8 bytes of a string. -/
def utf8 (s : String) : List UInt8 := s.toUTF8.data.toList

/-- A count or length as a word. -/
def count (order : ByteOrder) (n : Nat) : List UInt8 := order.bytes (UInt32.ofNat n)

def string (order : ByteOrder) (s : String) : List UInt8 :=
  count order (utf8 s).length ++ utf8 s

def strings (order : ByteOrder) (ss : List String) : List UInt8 :=
  count order ss.length ++ ss.flatMap (string order)

def instruction (order : ByteOrder) (i : Instruction) : List UInt8 :=
  i.kind.tag :: order.bytes i.atom

def instructions (order : ByteOrder) (is : List Instruction) : List UInt8 :=
  count order is.length ++ is.flatMap (instruction order)

end Esm.Encoding

namespace Esm.Module

open Encoding

/-- The bytes of a compiled module. -/
def encode (order : ByteOrder) (m : Module) : List UInt8 :=
  mark ++ [version] ++ string order m.name ++ strings order m.interface.requests
    ++ strings order m.interface.exports ++ strings order m.interface.starExports
    ++ strings order m.code.atoms ++ instructions order m.code.instructions

end Esm.Module
