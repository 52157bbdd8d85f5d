-- SUMMARY: Lowered code lists the kinds and the texts of the tokens that it comes from.
import Esm.Proofs.Encoding.Capacity

/-!
# Lowering

Lowering replaces the text of each token by the index of an atom. The table only grows at its end
while that is done, so an index that has been handed out keeps its text, and the code lists the
tokens again. Indices are words: this needs no more tokens than there are words.
-/

namespace Esm.Code

/-- The kind of each instruction and the text that it names. -/
def listing (code : Code) : List (TokenKind × Option String) :=
  code.instructions.map fun i => (i.kind, code.text? i.atom)

/-- Code with no more atoms than there are words lists the tokens that it comes from. -/
theorem listing_lower {atoms : Atoms} {ts : List Token} (mapped : atoms.Mapped)
    (few : (lower atoms ts).atoms.length ≤ UInt32.size) :
    (lower atoms ts).listing = ts.map fun t => (t.kind, some t.text) := by
  induction ts generalizing atoms with
  | nil => rfl
  | cons t ts ih =>
    obtain ⟨n, index, text⟩ := Atoms.exists_index mapped t.text
    have below := (List.getElem?_eq_some_iff.1 text).1
    have few : (lower (atoms.intern t.text).1 ts).atoms.length ≤ UInt32.size := few
    -- the atoms of the tokens behind come after the one of `t`
    obtain ⟨new, whole, -⟩ := atoms_lower (atoms.intern t.text).1 ts
    have word : (UInt32.ofNat n).toNat = n := by
      apply UInt32.toNat_ofNat_of_lt'
      rw [whole, List.length_append] at few
      omega
    have kept : (lower (atoms.intern t.text).1 ts).text? (atoms.intern t.text).2 =
        some t.text := by
      unfold text?
      rw [index, word, whole, List.getElem?_append_left below, text]
    have rest := ih (mapped.intern t.text) few
    unfold listing at rest ⊢
    simp only [lower, List.map_cons]
    rw [← rest]
    exact congrArg (· :: _) (congrArg (t.kind, ·) kept)

/-- The code of no more tokens than there are words lists their kinds and texts. -/
theorem listing_ofTokens {ts : List Token} (few : ts.length ≤ UInt32.size) :
    (ofTokens ts).listing = ts.map fun t => (t.kind, some t.text) := by
  obtain ⟨new, whole, sub⟩ := atoms_lower .empty ts
  refine listing_lower .empty ?_
  rw [show (lower .empty ts).atoms = new from whole]
  exact Nat.le_trans (List.length_map Token.text ▸ sub.length_le) few

/-- The texts that the instructions name, with a space between them. -/
def spelling (code : Code) : String := " ".intercalate (code.listing.filterMap Prod.snd)

/-- Code that does not have too many atoms for its indices is spelled as its tokens are. -/
theorem spelling_ofTokens {ts : List Token} (few : (ofTokens ts).atoms.length ≤ UInt32.size) :
    (ofTokens ts).spelling = " ".intercalate (ts.map Token.text) := by
  unfold spelling
  rw [show (ofTokens ts).listing = _ from listing_lower .empty few, List.filterMap_map]
  exact congrArg _ (List.filterMap_eq_map ▸ rfl)

end Esm.Code
