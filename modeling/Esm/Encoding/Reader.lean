-- SUMMARY: Reading a serialized module, with every way it can be malformed.
import Esm.Encoding.Format

/-!
# Reading serialized modules

A reader takes its value off the head of the bytes that are left and keeps count of the offset. It
refuses bytes that end too early, counts that the rest cannot hold, text that is not UTF-8, unknown
tags, atoms out of range and bytes left over.
-/

namespace Esm.Encoding

/-- Why bytes are no serialized module. -/
inductive Fault where
  | truncated (offset : Nat)
  | badMark
  | wrongVersion (found : UInt8)
  | invalidText (offset : Nat)
  | invalidKind (tag : UInt8)
  | atomOutOfRange (atom : UInt32)
  | trailing (bytes : Nat)
deriving DecidableEq, Repr

def Fault.message : Fault → String
  | .truncated offset => "truncated at offset " ++ toString offset
  | .badMark => "bad magic"
  | .wrongVersion found =>
    "version mismatch: expected " ++ toString version.toNat ++ ", found " ++ toString found.toNat
  | .invalidText offset => "invalid UTF-8 before offset " ++ toString offset
  | .invalidKind tag => "invalid instruction kind " ++ toString tag.toNat
  | .atomOutOfRange atom => "atom index " ++ toString atom.toNat ++ " out of range"
  | .trailing bytes => toString bytes ++ " trailing bytes"

/-- The bytes left to read and the offset of the first of them. -/
structure Input where
  rest : List UInt8
  offset : Nat
deriving DecidableEq, Repr

/-- Reading a value. -/
abbrev Reader (α : Type) := StateT Input (Except Fault) α

/-! ## Bytes and words -/

/-- Split a list behind its first `n` elements, if it has so many. -/
def splitExactly {α : Type} : Nat → List α → Option (List α × List α)
  | 0, xs => some ([], xs)
  | _ + 1, [] => none
  | n + 1, x :: xs => (splitExactly n xs).map fun (taken, left) => (x :: taken, left)

theorem splitExactly_eq_some {α : Type} {n : Nat} {xs taken left : List α} :
    splitExactly n xs = some (taken, left) ↔ taken ++ left = xs ∧ taken.length = n := by
  induction n generalizing xs taken with
  | zero =>
    simp only [splitExactly, Option.some.injEq, Prod.mk.injEq, List.length_eq_zero_iff]
    constructor
    · rintro ⟨rfl, rfl⟩; exact ⟨rfl, rfl⟩
    · rintro ⟨rfl, rfl⟩; exact ⟨rfl, rfl⟩
  | succ n ih =>
    cases xs with
    | nil =>
      simp only [splitExactly, List.append_eq_nil_iff, false_iff, reduceCtorEq]
      rintro ⟨⟨rfl, rfl⟩, h⟩
      simp at h
    | cons x xs =>
      simp only [splitExactly, Option.map_eq_some_iff, Prod.mk.injEq, Prod.exists]
      constructor
      · rintro ⟨taken', left', h, rfl, rfl⟩
        obtain ⟨rfl, rfl⟩ := ih.1 h
        simp
      · rintro ⟨whole, length⟩
        cases taken with
        | nil => simp at length
        | cons y taken =>
          simp only [List.cons_append, List.cons.injEq, List.length_cons,
            Nat.add_right_cancel_iff] at whole length
          exact ⟨taken, left, ih.2 ⟨whole.2, length⟩, by rw [whole.1], rfl⟩

/-- Take `n` bytes. -/
def take (n : Nat) : Reader (List UInt8) := fun i =>
  match splitExactly n i.rest with
  | none => .error (.truncated i.offset)
  | some (taken, left) => .ok (taken, ⟨left, i.offset + n⟩)

/-- Take one byte. -/
def readByte : Reader UInt8 := fun i =>
  match i.rest with
  | [] => .error (.truncated i.offset)
  | b :: left => .ok (b, ⟨left, i.offset + 1⟩)

/-- Take a word. -/
def readWord (order : ByteOrder) : Reader UInt32 := fun i =>
  match i.rest with
  | a :: b :: c :: d :: left => .ok (order.word a b c d, ⟨left, i.offset + 4⟩)
  | _ => .error (.truncated i.offset)

/-- Take a count of elements that take at least `size` bytes each, which the rest has to hold. -/
def readCount (order : ByteOrder) (size : Nat) : Reader Nat := do
  let n ← readWord order
  let i ← get
  if n.toNat * size > i.rest.length then throw (.truncated i.offset)
  return n.toNat

/-! ## Strings and instructions -/

/-- The string that bytes encode. -/
def ofUtf8? (bytes : List UInt8) : Option String := String.fromUTF8? ⟨bytes.toArray⟩

def readString (order : ByteOrder) : Reader String := do
  let length ← readWord order
  let bytes ← take length.toNat
  match ofUtf8? bytes with
  | some s => return s
  | none => throw (.invalidText (← get).offset)

/-- Read `n` values, one after the other. -/
def readMany {α : Type} (read : Reader α) : Nat → Reader (List α)
  | 0 => return []
  | n + 1 => do
    let x ← read
    let xs ← readMany read n
    return x :: xs

def readStrings (order : ByteOrder) : Reader (List String) := do
  let n ← readCount order 4
  readMany (readString order) n

/-- An instruction, whose atom has to be one of `atoms`. -/
def readInstruction (order : ByteOrder) (atoms : Nat) : Reader Instruction := do
  let tag ← readByte
  match TokenKind.ofTag? tag with
  | none => throw (.invalidKind tag)
  | some kind =>
    let atom ← readWord order
    if atom.toNat ≥ atoms then throw (.atomOutOfRange atom)
    return ⟨kind, atom⟩

def readInstructions (order : ByteOrder) (atoms : Nat) : Reader (List Instruction) := do
  let n ← readCount order 5
  readMany (readInstruction order atoms) n

/-- The mark and the version. -/
def readHeader : Reader Unit := do
  if (← take mark.length) ≠ mark then throw .badMark
  let found ← readByte
  if found ≠ version then throw (.wrongVersion found)

/-- A whole module. -/
def readModule (order : ByteOrder) : Reader Module := do
  readHeader
  let name ← readString order
  let requests ← readStrings order
  let exports ← readStrings order
  let starExports ← readStrings order
  let atoms ← readStrings order
  let instructions ← readInstructions order atoms.length
  let i ← get
  if i.rest ≠ [] then throw (.trailing i.rest.length)
  return ⟨name, ⟨requests, exports, starExports⟩, ⟨atoms, instructions⟩⟩

end Esm.Encoding

namespace Esm.Module

/-- The compiled module that bytes hold. -/
def decode (order : ByteOrder) (bytes : List UInt8) : Except Encoding.Fault Module :=
  (Encoding.readModule order ⟨bytes, 0⟩).map Prod.fst

end Esm.Module
