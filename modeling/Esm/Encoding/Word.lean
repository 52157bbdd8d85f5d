-- SUMMARY: Byte orders and four-byte words.

/-!
# Words

Serialized modules hold 32-bit words in one of two byte orders: that of this machine, which puts the
low byte first, and the opposite one. Reading a word and writing it are inverse in both orders.
-/

namespace Esm

/-- The order of the bytes of a word. -/
inductive ByteOrder where
  /-- The low byte comes first. -/
  | native
  /-- The high byte comes first. -/
  | swapped
deriving DecidableEq, Repr

namespace ByteOrder

/-- The order in which a target machine reads its words. -/
def forTarget (littleEndian : Bool) : ByteOrder := if littleEndian then native else swapped

/-- The bytes of a word. -/
def bytes (order : ByteOrder) (w : UInt32) : List UInt8 :=
  let b (place : Nat) : UInt8 := UInt8.ofNat (w.toNat / place)
  match order with
  | native => [b 1, b 256, b 65536, b 16777216]
  | swapped => [b 16777216, b 65536, b 256, b 1]

/-- The word of four bytes. -/
def word (order : ByteOrder) (a b c d : UInt8) : UInt32 :=
  let value (a b c d : UInt8) : UInt32 :=
    UInt32.ofNat (a.toNat + 256 * (b.toNat + 256 * (c.toNat + 256 * d.toNat)))
  match order with
  | native => value a b c d
  | swapped => value d c b a

@[simp] theorem length_bytes (order : ByteOrder) (w : UInt32) : (order.bytes w).length = 4 := by
  cases order <;> rfl

theorem bytes_word (order : ByteOrder) (a b c d : UInt8) :
    order.bytes (order.word a b c d) = [a, b, c, d] := by
  have ha := a.toNat_lt
  have hb := b.toNat_lt
  have hc := c.toNat_lt
  have hd := d.toNat_lt
  cases order <;>
    simp only [bytes, word, UInt32.toNat_ofNat', List.cons.injEq, and_true, ← UInt8.toNat_inj,
      UInt8.toNat_ofNat'] <;>
    omega

theorem word_bytes (order : ByteOrder) (w : UInt32) :
    ∃ a b c d, order.bytes w = [a, b, c, d] ∧ order.word a b c d = w := by
  have hw := w.toNat_lt
  cases order <;> refine ⟨_, _, _, _, rfl, ?_⟩ <;>
    simp only [word, ← UInt32.toNat_inj, UInt32.toNat_ofNat', UInt8.toNat_ofNat'] <;>
    omega

end ByteOrder

end Esm
