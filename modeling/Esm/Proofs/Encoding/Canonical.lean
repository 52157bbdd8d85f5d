-- SUMMARY: Every module that can be read has one serialized form, and it is the one written for it.
import Esm.Proofs.Encoding.Accepted

/-!
# Canonical form

What is read as a module is, byte for byte, what is written for that module. So in either byte order
a module has exactly one serialized form, or none if it is too large for the format or if one of its
instructions names no atom.
-/

namespace Esm

/-- Every instruction names an atom of the table. -/
def Code.Indexed (code : Code) : Prop := ∀ i ∈ code.instructions, i.atom.toNat < code.atoms.length

instance (code : Code) : Decidable code.Indexed := inferInstanceAs (Decidable (∀ i ∈ _, _))

namespace Module

open Encoding Encoding.Reader

/-- Every count and every length of a module is a word. -/
structure Encodable (m : Module) : Prop where
  name : Short m.name
  requests : ShortList m.interface.requests
  exports : ShortList m.interface.exports
  starExports : ShortList m.interface.starExports
  atoms : ShortList m.code.atoms
  instructions : m.code.instructions.length < UInt32.size

instance (m : Module) : Decidable m.Encodable :=
  decidable_of_iff (Short m.name ∧ ShortList m.interface.requests ∧
      ShortList m.interface.exports ∧ ShortList m.interface.starExports ∧
      ShortList m.code.atoms ∧ m.code.instructions.length < UInt32.size)
    ⟨fun ⟨n, r, e, s, a, i⟩ => ⟨n, r, e, s, a, i⟩, fun ⟨n, r, e, s, a, i⟩ => ⟨n, r, e, s, a, i⟩⟩

theorem readModule_eq_ok {order : ByteOrder} {i j : Input} {m : Module} :
    readModule order i = .ok (m, j) ↔
      Splits i (m.encode order) j ∧ j.rest = [] ∧ m.Encodable ∧ m.code.Indexed := by
  unfold readModule encode
  simp only [bind_eq_ok, get_eq_ok, unless_eq_ok, pure_eq_ok, accepts_readHeader _ _ _,
    accepts_readString order _ _ _, accepts_readStrings order _ _ _, readInstructions_eq_ok]
  constructor
  · rintro ⟨-, i₁, ⟨header, -⟩, name, i₂, ⟨hname, sname⟩, requests, i₃, ⟨hrequests, srequests⟩,
      exports, i₄, ⟨hexports, sexports⟩, stars, i₅, ⟨hstars, sstars⟩, atoms, i₆, ⟨hatoms, satoms⟩,
      instructions, i₇, ⟨hinstructions, sinstructions, indexed⟩, _, _, ⟨rfl, rfl⟩, hend, rfl, rfl⟩
    refine ⟨?_, Decidable.of_not_not hend, ?_, indexed⟩
    · exact Splits.append_iff.2 ⟨_, Splits.append_iff.2 ⟨_, Splits.append_iff.2 ⟨_,
        Splits.append_iff.2 ⟨_, Splits.append_iff.2 ⟨_, Splits.append_iff.2 ⟨_, header, hname⟩,
          hrequests⟩, hexports⟩, hstars⟩, hatoms⟩, hinstructions⟩
    · exact ⟨sname, srequests, sexports, sstars, satoms, sinstructions⟩
  · rintro ⟨hsplits, hend, encodable, indexed⟩
    obtain ⟨i₆, hsplits, hinstructions⟩ := Splits.append_iff.1 hsplits
    obtain ⟨i₅, hsplits, hatoms⟩ := Splits.append_iff.1 hsplits
    obtain ⟨i₄, hsplits, hstars⟩ := Splits.append_iff.1 hsplits
    obtain ⟨i₃, hsplits, hexports⟩ := Splits.append_iff.1 hsplits
    obtain ⟨i₂, hsplits, hrequests⟩ := Splits.append_iff.1 hsplits
    obtain ⟨i₁, header, hname⟩ := Splits.append_iff.1 hsplits
    exact ⟨(), i₁, ⟨header, trivial⟩, m.name, i₂, ⟨hname, encodable.name⟩, _, i₃,
      ⟨hrequests, encodable.requests⟩, _, i₄, ⟨hexports, encodable.exports⟩, _, i₅,
      ⟨hstars, encodable.starExports⟩, _, i₆, ⟨hatoms, encodable.atoms⟩, _, j,
      ⟨hinstructions, encodable.instructions, indexed⟩, j, j, ⟨rfl, rfl⟩, fun h => h hend, rfl, rfl⟩

/-- The bytes that are read as a module are those written for it. -/
theorem decode_eq_ok {order : ByteOrder} {bytes : List UInt8} {m : Module} :
    decode order bytes = .ok m ↔ bytes = m.encode order ∧ m.Encodable ∧ m.code.Indexed := by
  unfold decode
  constructor
  · intro h
    cases hread : readModule order ⟨bytes, 0⟩ with
    | error e =>
      rw [hread] at h
      cases h
    | ok p =>
      obtain ⟨m', j⟩ := p
      rw [hread] at h
      cases h
      obtain ⟨hsplits, hend, encodable, indexed⟩ := readModule_eq_ok.1 hread
      refine ⟨?_, encodable, indexed⟩
      have hbytes := hsplits.rest
      rw [hend, List.append_nil] at hbytes
      exact hbytes
  · rintro ⟨rfl, encodable, indexed⟩
    have hsplits : Splits ⟨m.encode order, 0⟩ (m.encode order) ⟨[], (m.encode order).length⟩ :=
      ⟨(List.append_nil _).symm, (Nat.zero_add _).symm⟩
    rw [readModule_eq_ok.2 ⟨hsplits, rfl, encodable, indexed⟩]
    rfl

/-- Writing a module that was read gives the bytes it was read from, and no other bytes are read as
that module in the same order. -/
theorem encode_decode {order : ByteOrder} {bytes : List UInt8} {m : Module}
    (read : decode order bytes = .ok m) :
    m.encode order = bytes ∧ ∀ other, decode order other = .ok m → other = bytes := by
  obtain ⟨hbytes, -, -⟩ := decode_eq_ok.1 read
  refine ⟨hbytes.symm, ?_⟩
  intro other hother
  obtain ⟨hother, -, -⟩ := decode_eq_ok.1 hother
  rw [hother, hbytes]

/-- A module with text outside the first 128 characters, high byte first. -/
theorem encode_decode_accented :
    let m : Module := ⟨"m", ⟨["é"], ["b"], []⟩, ⟨["b", "é"], [⟨.identifier, 1⟩, ⟨.string, 0⟩]⟩⟩
    let bytes : List UInt8 := [116, 106, 115, 99, 1, 0, 0, 0, 1, 109, 0, 0, 0, 1, 0, 0, 0, 2, 195,
      169, 0, 0, 0, 1, 0, 0, 0, 1, 98, 0, 0, 0, 0, 0, 0, 0, 2, 0, 0, 0, 1, 98, 0, 0, 0, 2, 195, 169,
      0, 0, 0, 2, 0, 0, 0, 0, 1, 1, 0, 0, 0, 0]
    decode .swapped bytes = .ok m ∧
      m.encode .swapped = bytes ∧ ∀ other, decode .swapped other = .ok m → other = bytes := by
  intro m bytes
  have read : decode .swapped bytes = .ok m := by rfl
  exact ⟨read, encode_decode read⟩

end Module

end Esm
