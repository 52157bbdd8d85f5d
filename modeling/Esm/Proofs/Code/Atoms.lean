-- SUMMARY: Lowered code keeps every token, and its atoms are the texts in order of first use.
import Mathlib.Data.List.Forall2
import Mathlib.Data.List.Nodup
import Esm.Proofs.Code.Lowering
import Esm.Proofs.Module.Listing
import Esm.Proofs.Registry.Records
import Esm.Proofs.Token.Tiling

/-!
# Atoms

While tokens are lowered, the table holds each text that has come up so far, once, in the order in
which they came up. This is what a lowering step keeps, so the table is known from the texts alone,
and with it the code is known from the kinds and the texts. Since the code lists these again, it is
the same for two sources exactly if they are read as the same tokens. Main statement:
`ofTokens_lossless`.
-/

namespace Esm.Code

open Text

-- ---------------------------------------------------------------------------
-- The table
-- ---------------------------------------------------------------------------

/-- A table of texts: it holds all of them and no others, ordered by where they come up first. -/
structure Tabulates (texts atoms : List String) : Prop where
  mem : ∀ {text : String}, text ∈ atoms ↔ text ∈ texts
  ordered : atoms.Pairwise fun a b => texts.idxOf a < texts.idxOf b

/-- A table holds nothing twice. -/
theorem Tabulates.nodup {texts atoms : List String} (table : Tabulates texts atoms) :
    atoms.Nodup := by
  refine table.ordered.imp ?_
  rintro a b earlier rfl
  exact Nat.lt_irrefl _ earlier

/-- A text that has come up before leaves the table as it is, and any other is put behind it. -/
theorem Tabulates.insert {texts atoms : List String} (table : Tabulates texts atoms)
    (text : String) :
    Tabulates (texts ++ [text]) (if text ∈ atoms then atoms else atoms ++ [text]) := by
  -- where the texts of the table came up first has not changed
  have kept : ∀ {a : String}, a ∈ atoms → (texts ++ [text]).idxOf a = texts.idxOf a :=
    fun mem => List.idxOf_append_of_mem (table.mem.1 mem)
  have ordered : atoms.Pairwise fun a b =>
      (texts ++ [text]).idxOf a < (texts ++ [text]).idxOf b := by
    refine table.ordered.imp_of_mem fun first second earlier => ?_
    rwa [kept first, kept second]
  split
  · rename_i seen
    refine ⟨fun {other} => ?_, ordered⟩
    rw [table.mem, List.mem_append, List.mem_singleton]
    exact ⟨Or.inl, fun h => h.elim id fun same => same ▸ table.mem.1 seen⟩
  · rename_i fresh
    refine ⟨fun {other} => ?_, List.pairwise_append.2 ⟨ordered, List.pairwise_singleton _ _, ?_⟩⟩
    · rw [List.mem_append, List.mem_append, table.mem]
    · intro a mem b last
      obtain rfl := List.mem_singleton.1 last
      have before := List.idxOf_lt_length_of_mem (table.mem.1 mem)
      rw [kept mem, List.idxOf_append_of_notMem (mt table.mem.2 fresh)]
      exact Nat.lt_of_lt_of_le before (Nat.le_add_right _ _)

/-- Lowering tokens over the table of the texts before them. -/
theorem Tabulates.lower {texts : List String} {atoms : Atoms} (table : Tabulates texts atoms.texts)
    (mapped : atoms.Mapped) (ts : List Token) :
    Tabulates (texts ++ ts.map Token.text) (lower atoms ts).atoms := by
  induction ts generalizing texts atoms with
  | nil => rwa [List.map_nil, List.append_nil]
  | cons t ts ih =>
    have next : Tabulates (texts ++ [t.text]) (atoms.intern t.text).1.texts := by
      rw [Atoms.texts_intern mapped]
      exact table.insert t.text
    have behind := ih next (mapped.intern t.text)
    rwa [List.append_assoc] at behind

theorem tabulates_ofTokens (ts : List Token) :
    Tabulates (ts.map Token.text) (ofTokens ts).atoms :=
  Tabulates.lower ⟨Iff.rfl, .nil⟩ .empty ts

-- ---------------------------------------------------------------------------
-- Instructions
-- ---------------------------------------------------------------------------

/-- Code that lists its tokens uses every atom. -/
theorem exists_instruction {ts : List Token}
    (listed : (ofTokens ts).listing = ts.map fun t => (t.kind, some t.text)) {k : Nat}
    (below : k < (ofTokens ts).atoms.length) :
    ∃ i ∈ (ofTokens ts).instructions, i.atom.toNat = k := by
  have table := tabulates_ofTokens ts
  obtain ⟨t, mem, text⟩ := List.mem_map.1 (table.mem.1 (List.getElem_mem below))
  have among : (t.kind, some t.text) ∈ (ofTokens ts).listing := by
    rw [listed]
    exact List.mem_map.2 ⟨t, mem, rfl⟩
  obtain ⟨i, used, same⟩ := List.mem_map.1 among
  have named : (ofTokens ts).atoms[i.atom.toNat]? = some (ofTokens ts).atoms[k] := by
    rw [← text]
    exact (Prod.mk.inj same).2
  obtain ⟨within, equal⟩ := List.getElem?_eq_some_iff.1 named
  exact ⟨i, used, (List.Nodup.getElem_inj_iff table.nodup).1 equal⟩

/-- Lowering looks at the kinds and the texts alone, and code that lists them is known by them. -/
theorem ofTokens_eq_iff {ts ts' : List Token} (few : ts.length ≤ UInt32.size)
    (few' : ts'.length ≤ UInt32.size) : ofTokens ts = ofTokens ts' ↔
      ts.map (fun t => (t.kind, t.text)) = ts'.map fun t => (t.kind, t.text) := by
  constructor
  · intro same
    have listed : (ts.map fun t => (t.kind, some t.text)) =
        ts'.map fun t => (t.kind, some t.text) := by
      rw [← listing_ofTokens few, same, listing_ofTokens few']
    have texts := congrArg (List.map fun p => (p.1, p.2.getD "")) listed
    simpa only [List.map_map, Function.comp_def, Option.getD_some] using texts
  · intro same
    refine (lower_alike ?_ .empty).symm
    rw [← List.forall₂_eq_eq_eq, List.forall₂_map_left_iff, List.forall₂_map_right_iff] at same
    exact same.imp fun t t' alike => ⟨(Prod.mk.inj alike).1.symm, (Prod.mk.inj alike).2.symm⟩

-- ---------------------------------------------------------------------------
-- Sources
-- ---------------------------------------------------------------------------

/-- The code of a source of less than four gigabytes has one instruction for each token, in their
order, with the token's kind and an atom that is its piece of the source. The atoms are different
from each other, stand in the order of their first use, and are all used. No instruction names an
atom that is not there, and two sources have the same code exactly if their tokens have the same
kinds and texts. -/
theorem ofTokens_lossless {source : String} {ts : List Token}
    (size : source.utf8ByteSize < UInt32.size) (scanned : tokenize source = .ok ts) :
    List.Forall₂ (fun i t => i.kind = t.kind ∧ (ofTokens ts).text? i.atom = some t.text)
      (ofTokens ts).instructions ts ∧
    (∀ t ∈ ts, ∃ before after, before ++ t.text.toList ++ after = source.toList ∧
      t.start = byteLength before) ∧
    (ofTokens ts).atoms.Nodup ∧ Tabulates (ts.map Token.text) (ofTokens ts).atoms ∧
    (∀ k < (ofTokens ts).atoms.length, ∃ i ∈ (ofTokens ts).instructions, i.atom.toNat = k) ∧
    (ofTokens ts).Indexed ∧
    ∀ source' ts', source'.utf8ByteSize < UInt32.size → tokenize source' = .ok ts' →
      (ofTokens ts = ofTokens ts' ↔
        ts.map (fun t => (t.kind, t.text)) = ts'.map fun t => (t.kind, t.text)) := by
  have few : ∀ {source : String} {ts : List Token}, source.utf8ByteSize < UInt32.size →
      tokenize source = .ok ts → ts.length ≤ UInt32.size := by
    intro source ts size scanned
    rw [← byteLength_toList] at size
    exact Nat.le_trans (tokenize_size scanned).1 (Nat.le_of_lt size)
  have listed := listing_ofTokens (few size scanned)
  refine ⟨?_, fun t mem => ?_, (tabulates_ofTokens ts).nodup, tabulates_ofTokens ts,
    fun k below => exists_instruction listed below, indexed_ofTokens ts,
    fun source' ts' size' scanned' => ofTokens_eq_iff (few size scanned) (few size' scanned')⟩
  · rw [listing, ← List.forall₂_eq_eq_eq, List.forall₂_map_left_iff,
      List.forall₂_map_right_iff] at listed
    exact listed.imp fun i t same => Prod.mk.inj same
  · obtain ⟨line, whole, -, offset⟩ := Scanner.hashbang_ofSource source
    have tiles := Scanner.tokens_tile scanned
    rw [offset] at tiles
    obtain ⟨before, after, parts, start⟩ := tiles.covers t mem
    refine ⟨line ++ before, after, ?_, by rw [start, byteLength_append]⟩
    rw [← whole, ← parts]
    simp

/-- A name and a sign that come up twice, and another source with the same tokens. -/
theorem ofTokens_lossless_repeated :
    let ts : List Token := [⟨.identifier, 0, "é"⟩, ⟨.punctuator, 3, "+"⟩, ⟨.identifier, 5, "é"⟩,
      ⟨.punctuator, 8, "+"⟩, ⟨.identifier, 10, "b"⟩]
    let ts' : List Token := [⟨.identifier, 4, "é"⟩, ⟨.punctuator, 6, "+"⟩, ⟨.identifier, 7, "é"⟩,
      ⟨.punctuator, 9, "+"⟩, ⟨.identifier, 10, "b"⟩]
    tokenize "é + é + b" = .ok ts ∧ tokenize "/**/é+é+b" = .ok ts' ∧
      (ofTokens ts).atoms = ["é", "+", "b"] ∧ (ofTokens ts).Indexed ∧
      ofTokens ts = ofTokens ts' := by
  intro ts ts'
  have scanned : tokenize "é + é + b" = .ok ts := by decide +kernel
  have scanned' : tokenize "/**/é+é+b" = .ok ts' := by decide +kernel
  obtain ⟨-, -, -, -, -, indexed, unique⟩ := ofTokens_lossless (by decide) scanned
  exact ⟨scanned, scanned', by decide +kernel, indexed, (unique _ ts' (by decide) scanned').2 rfl⟩

end Esm.Code
