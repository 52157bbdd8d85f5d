-- SUMMARY: Lowered code: a table of atoms and one instruction for each token.
import Esm.Table
import Esm.Token.Basic

/-!
# Code

Lowering keeps the kind and text of every token. Each text is stored once, as an atom, in order of
first use; an instruction names a kind and the index of an atom. While tokens are lowered, a map
from the atoms to their indices tells which texts have come up before. Every step keeps the map in
step with the atoms (`Atoms.Mapped`).
-/

namespace Esm

/-- A token's kind and the index of the atom that holds its text. -/
structure Instruction where
  kind : TokenKind
  atom : UInt32
deriving DecidableEq, Repr

/-- An atom table and the instructions over it. -/
structure Code where
  atoms : List String
  instructions : List Instruction
deriving DecidableEq, Repr

namespace Code

/-- Whether there is nothing to execute. -/
def isEmpty (code : Code) : Bool := code.instructions.isEmpty

/-- The text of the atom at an index. -/
def text? (code : Code) (atom : UInt32) : Option String := code.atoms[atom.toNat]?

end Code

/-- The atoms that have come up so far, and the index of each. -/
structure Atoms where
  texts : List String
  indices : Table UInt32
deriving DecidableEq, Repr

namespace Atoms

def empty : Atoms := ⟨[], []⟩

/-- The index of a text, which becomes an atom if it is none yet. -/
def intern (atoms : Atoms) (text : String) : Atoms × UInt32 :=
  match atoms.indices.lookup text with
  | some i => (atoms, i)
  | none =>
    let i := UInt32.ofNat atoms.texts.length
    (⟨atoms.texts ++ [text], atoms.indices.define text i⟩, i)

/-- The map holds each atom with its index, and nothing else. -/
def Mapped (atoms : Atoms) : Prop :=
  ∀ text, atoms.indices.lookup text = (atoms.texts.idxOf? text).map UInt32.ofNat

variable {atoms : Atoms}

theorem Mapped.lookup_eq_none (mapped : atoms.Mapped) {text : String} :
    atoms.indices.lookup text = none ↔ text ∉ atoms.texts := by
  rw [mapped text, Option.map_eq_none_iff, List.idxOf?_eq_none_iff]

theorem Mapped.empty : Mapped .empty := fun _ => rfl

theorem Mapped.intern (mapped : atoms.Mapped) (text : String) : (atoms.intern text).1.Mapped := by
  unfold Atoms.intern
  cases found : atoms.indices.lookup text with
  | some i => exact mapped
  | none =>
    intro other
    have fresh : atoms.texts.idxOf? text = none :=
      List.idxOf?_eq_none_iff.2 (mapped.lookup_eq_none.1 found)
    show (atoms.indices.define text _).lookup other = ((atoms.texts ++ [text]).idxOf? other).map _
    rw [Table.lookup_define, mapped other]
    unfold List.idxOf? at fresh ⊢
    rw [List.findIdx?_append]
    by_cases same : other = text
    · subst same
      simp [fresh]
    · simp [same, Ne.symm same]

/-- Interning keeps the atoms that there are, and adds one at most. -/
theorem texts_intern_cases (atoms : Atoms) (text : String) :
    (atoms.intern text).1.texts = atoms.texts ∨
      (atoms.intern text).1.texts = atoms.texts ++ [text] := by
  unfold Atoms.intern
  cases atoms.indices.lookup text with
  | some i => exact Or.inl rfl
  | none => exact Or.inr rfl

theorem texts_intern (mapped : atoms.Mapped) (text : String) : (atoms.intern text).1.texts =
    if text ∈ atoms.texts then atoms.texts else atoms.texts ++ [text] := by
  have none : atoms.indices.lookup text = none ↔ text ∉ atoms.texts := mapped.lookup_eq_none
  unfold Atoms.intern
  cases found : atoms.indices.lookup text with
  | some i => rw [if_pos (by simpa [found] using none)]
  | none => rw [if_neg (none.1 found)]

/-- The index of an interned text is one at which that text stands. -/
theorem exists_index (mapped : atoms.Mapped) (text : String) :
    ∃ i, (atoms.intern text).2 = UInt32.ofNat i ∧
      (atoms.intern text).1.texts[i]? = some text := by
  have index := mapped text
  unfold Atoms.intern
  cases found : atoms.indices.lookup text with
  | none => exact ⟨atoms.texts.length, rfl, List.getElem?_concat_length⟩
  | some word =>
    rw [found] at index
    obtain ⟨i, place, named⟩ := Option.map_eq_some_iff.1 index.symm
    unfold List.idxOf? at place
    obtain ⟨below, same, -⟩ := List.findIdx?_eq_some_iff_getElem.1 place
    exact ⟨i, named.symm, List.getElem?_eq_some_iff.2 ⟨below, eq_of_beq same⟩⟩

end Atoms

namespace Code

/-- Lower tokens over the atoms that the tokens before them left. -/
def lower (atoms : Atoms) : List Token → Code
  | [] => ⟨atoms.texts, []⟩
  | t :: ts =>
    let (atoms, i) := atoms.intern t.text
    let code := lower atoms ts
    ⟨code.atoms, ⟨t.kind, i⟩ :: code.instructions⟩

/-- Lower the tokens of a source. -/
def ofTokens (ts : List Token) : Code := lower .empty ts

theorem kind_lower (atoms : Atoms) (ts : List Token) :
    (lower atoms ts).instructions.map Instruction.kind = ts.map Token.kind := by
  induction ts generalizing atoms with
  | nil => rfl
  | cons t ts ih => simp [lower, ih]

@[simp] theorem kind_ofTokens (ts : List Token) :
    (ofTokens ts).instructions.map Instruction.kind = ts.map Token.kind :=
  kind_lower .empty ts

end Code

end Esm
