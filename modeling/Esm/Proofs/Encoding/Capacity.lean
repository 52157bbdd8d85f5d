-- SUMMARY: A source whose length is a word compiles to a module that has a serialized form.
import Esm.Proofs.Encoding.Canonical
import Esm.Proofs.Interface.Names
import Esm.Proofs.Token.Extent

/-!
# Capacity

A module has a serialized form if its counts and lengths are words. Compiling adds nothing to a
source: there are no more tokens, names and atoms than characters, and none is longer than the whole
source. So every source of less than four gigabytes has a serialized form once it is compiled.
-/

namespace Esm

open Text Encoding

-- ---------------------------------------------------------------------------
-- Lengths of texts
-- ---------------------------------------------------------------------------

theorem byteLength_toList (s : String) : byteLength s.toList = s.utf8ByteSize := by
  have ofList : ∀ text : List Char, (String.ofList text).utf8ByteSize = byteLength text := by
    intro text
    induction text with
    | nil => rfl
    | cons c text ih =>
      rw [String.ofList_cons, String.utf8ByteSize_append, String.utf8ByteSize_singleton, ih]
      rfl
  rw [← ofList, String.ofList_toList]

theorem short_of_le {s : String} {size : Nat} (le : byteLength s.toList ≤ size)
    (word : size < UInt32.size) : Short s := by
  have length : (utf8 s).length = s.utf8ByteSize := rfl
  unfold Short
  rw [length, ← byteLength_toList]
  exact Nat.lt_of_le_of_lt le word

/-- Escapes take at least as much room as what they stand for. -/
theorem byteLength_unescape_le (text : List Char) :
    byteLength (unescape text) ≤ byteLength text := by
  have char : ∀ c, (unescapeChar c).utf8Size ≤ c.utf8Size := by
    intro c
    unfold unescapeChar
    have := Char.utf8Size_pos c
    split
    · exact this
    · split
      · exact this
      · split
        · exact this
        · split
          · exact this
          · exact Nat.le_refl _
  fun_induction unescape text with
  | case1 => exact Nat.le_refl 0
  | case2 c rest ih =>
    have := char c
    simp only [byteLength_cons]
    omega
  | case3 => exact Nat.zero_le _
  | case4 c rest _ _ ih =>
    simp only [byteLength_cons]
    omega

theorem byteLength_le_of_sublist {text text' : List Char} (sub : text.Sublist text') :
    byteLength text ≤ byteLength text' := by
  induction sub with
  | slnil => exact Nat.le_refl 0
  | cons c _ ih =>
    rw [byteLength_cons]
    omega
  | cons_cons c _ ih =>
    rw [byteLength_cons, byteLength_cons]
    omega

theorem byteLength_stringValue_le (t : Token) :
    byteLength t.stringValue.toList ≤ byteLength t.text.toList := by
  unfold Token.stringValue
  rw [String.toList_ofList]
  apply Nat.le_trans (byteLength_unescape_le _)
  apply byteLength_le_of_sublist
  exact (List.dropLast_sublist _).trans (List.drop_sublist 1 _)

-- ---------------------------------------------------------------------------
-- Names and atoms
-- ---------------------------------------------------------------------------

theorem byteLength_specifier?_le {t : Token} {name : String} (given : t.specifier? = some name) :
    byteLength name.toList ≤ byteLength t.text.toList := by
  unfold Token.specifier? at given
  split at given
  · cases given
    exact byteLength_stringValue_le t
  · cases given

theorem byteLength_name?_le {t : Token} {name : String} (given : t.name? = some name) :
    byteLength name.toList ≤ byteLength t.text.toList := by
  unfold Token.name? at given
  split at given
  · cases given
    exact Nat.le_refl _
  · cases given
    exact byteLength_stringValue_le t
  · cases given

/-- Names that tokens give are as few and as short as the tokens. -/
theorem shortList_of_sublist {ts : List Token} {size : Nat} {gives : Token → Option String}
    {names : List String} (few : ts.length ≤ size)
    (short : ∀ t ∈ ts, byteLength t.text.toList ≤ size) (word : size < UInt32.size)
    (le : ∀ {t name}, gives t = some name → byteLength name.toList ≤ byteLength t.text.toList)
    (sub : names.Sublist (ts.filterMap gives)) : ShortList names := by
  refine ⟨?_, ?_⟩
  · have := sub.length_le
    have := List.length_filterMap_le gives ts
    omega
  · intro name mem
    obtain ⟨t, ht, given⟩ := List.mem_filterMap.1 (sub.subset mem)
    exact short_of_le (Nat.le_trans (le given) (short t ht)) word

/-- Lowering adds atoms that are texts of tokens, in the order of the tokens. -/
theorem Code.atoms_lower (atoms : Atoms) (ts : List Token) :
    ∃ new, (lower atoms ts).atoms = atoms.texts ++ new ∧ new.Sublist (ts.map Token.text) := by
  induction ts generalizing atoms with
  | nil => exact ⟨[], (List.append_nil _).symm, List.nil_sublist _⟩
  | cons t ts ih =>
    obtain ⟨new, whole, sub⟩ := ih (atoms.intern t.text).1
    simp only [lower, whole, List.map_cons]
    rcases Atoms.texts_intern_cases atoms t.text with texts | texts
    · exact ⟨new, by rw [texts], sub.cons t.text⟩
    · exact ⟨t.text :: new, by rw [texts, List.append_assoc]; rfl, sub.cons_cons t.text⟩

namespace Module

/-- A source whose length is a word compiles to a module that has a serialized form. -/
theorem encodable_of_compile {source name : String} {m : Module}
    (compiled : compile source name = .ok m) (size : source.utf8ByteSize < UInt32.size)
    (named : Short name) : m.Encodable := by
  obtain ⟨tokens, interface, scanned, declared, rfl⟩ := compile_eq_ok.1 compiled
  rw [← byteLength_toList] at size
  obtain ⟨few, short⟩ := tokenize_size scanned
  have specifiers : ∀ {names : List String},
      names.Sublist (tokens.filterMap Token.specifier?) → ShortList names :=
    shortList_of_sublist few short size byteLength_specifier?_le
  refine ⟨named, ?_, ?_, ?_, ?_, ?_⟩
  · -- requests
    exact specifiers (Interface.requests_sublist declared)
  · -- exports
    exact shortList_of_sublist few short size byteLength_name?_le
      (Interface.exports_sublist declared)
  · -- star exports
    exact specifiers (Interface.starExports_sublist declared)
  · -- atoms
    obtain ⟨atoms, whole, sub⟩ := Code.atoms_lower .empty tokens
    have texts : atoms.Sublist (tokens.filterMap (some ∘ Token.text)) := by
      rw [List.filterMap_eq_map]
      exact sub
    have lowered : (Code.ofTokens tokens).atoms = atoms := whole
    show ShortList (Code.ofTokens tokens).atoms
    rw [lowered]
    refine shortList_of_sublist few short size ?_ texts
    intro t text given
    cases given
    exact Nat.le_refl _
  · -- instructions
    have length := congrArg List.length (Code.kind_ofTokens tokens)
    rw [List.length_map, List.length_map] at length
    rw [length]
    exact Nat.lt_of_le_of_lt few size

end Module

end Esm
