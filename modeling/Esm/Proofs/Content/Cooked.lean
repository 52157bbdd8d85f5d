-- SUMMARY: The value of a JSON module's literal is the document with its line endings normalised.
import Esm.Proofs.Content.JsonModule
import Mathlib.Data.List.DropRight

/-!
# The cooked value of a document

The language reads the text of a template literal twice over: an escape becomes the character behind
its backslash, and a line ending becomes a line feed, however it was written. Escaping a document
undoes the first of the two and not the second. So the value of the literal is the document with its
line endings normalised; it is the document itself just when no carriage return is in it.
-/

namespace Esm.JsonModule

open Lexeme

-- ---------------------------------------------------------------------------
-- Line endings
-- ---------------------------------------------------------------------------

/-- The text with every line ending written as a line feed. -/
def newlines : List Char → List Char
  | [] => []
  | '\r' :: '\n' :: rest => '\n' :: newlines rest
  | '\r' :: rest => '\n' :: newlines rest
  | c :: rest => c :: newlines rest

theorem newlines_cons {c : Char} (plain : c ≠ '\r') (rest : List Char) :
    newlines (c :: rest) = c :: newlines rest := by
  rw [newlines]
  · intro _ same
    exact absurd same plain
  · exact plain

theorem not_mem_newlines (text : List Char) : '\r' ∉ newlines text := by
  fun_induction newlines text with
  | case1 => exact List.not_mem_nil
  | case2 rest ih => simpa using ih
  | case3 rest _ ih => simpa using ih
  | case4 c rest _ plain ih =>
    have other : c ≠ '\r' := plain
    simpa [Ne.symm other] using ih

/-- Only a carriage return is changed. -/
theorem newlines_eq_self {text : List Char} : newlines text = text ↔ '\r' ∉ text := by
  refine ⟨fun same => same ▸ not_mem_newlines text, fun without => ?_⟩
  induction text with
  | nil => rfl
  | cons c rest ih =>
    simp only [List.mem_cons, not_or] at without
    rw [newlines_cons (Ne.symm without.1), ih without.2]

-- ---------------------------------------------------------------------------
-- Cooking
-- ---------------------------------------------------------------------------

/-- The cooked value of the text of a template literal. A backslash, a backtick or a dollar sign is
itself behind a backslash; a line ending is a line feed. -/
def cooked : List Char → List Char
  | [] => []
  | '\\' :: '\\' :: rest => '\\' :: cooked rest
  | '\\' :: '\x60' :: rest => '\x60' :: cooked rest
  | '\\' :: '$' :: rest => '$' :: cooked rest
  | '\r' :: '\n' :: rest => '\n' :: cooked rest
  | '\r' :: rest => '\n' :: cooked rest
  | c :: rest => c :: cooked rest

theorem cooked_escaped {c : Char} (special : c = '\\' ∨ c = '\x60' ∨ c = '$') (rest : List Char) :
    cooked ('\\' :: c :: rest) = c :: cooked rest := by
  obtain rfl | rfl | rfl := special <;> rw [cooked]

theorem cooked_cons {c : Char} (escape : c ≠ '\\') (plain : c ≠ '\r') (rest : List Char) :
    cooked (c :: rest) = c :: cooked rest := by
  rw [cooked] <;> simp_all

theorem cooked_return {rest : List Char} (alone : rest.head? ≠ some '\n') :
    cooked ('\r' :: rest) = '\n' :: cooked rest := by
  rw [cooked]
  rintro _ rfl
  exact alone rfl

/-- What is escaped starts with a line feed only if it did so before. -/
theorem head?_escape_ne_newline {document : List Char} (alone : document.head? ≠ some '\n') :
    (escape document).head? ≠ some '\n' := by
  cases document with
  | nil =>
    intro feed
    cases feed
  | cons c document =>
    unfold escape
    split
    · intro feed
      cases feed
    · exact alone

theorem escape_newline (rest : List Char) : escape ('\n' :: rest) = '\n' :: escape rest := by
  simp [escape]

theorem escape_return (rest : List Char) : escape ('\r' :: rest) = '\r' :: escape rest := by
  simp [escape]

theorem cooked_escape (document : List Char) : cooked (escape document) = newlines document := by
  fun_induction newlines document with
  | case1 => rfl
  | case2 rest ih =>
    -- the two characters of one line ending stay side by side
    rw [escape_return, escape_newline, cooked, ih]
  | case3 rest alone ih =>
    have alone : rest.head? ≠ some '\n' := by
      intro feed
      obtain ⟨rest, rfl⟩ := List.head?_eq_some_iff.1 feed
      exact alone rest rfl
    rw [escape_return, cooked_return (head?_escape_ne_newline alone), ih]
  | case4 c rest _ plain ih =>
    unfold escape
    split
    · rename_i special
      have special : c = '\\' ∨ c = '\x60' ∨ c = '$' := by
        simp only [Bool.or_eq_true, Bool.and_eq_true, decide_eq_true_eq] at special
        tauto
      rw [cooked_escaped special, ih]
    · rename_i unescaped
      simp only [Bool.or_eq_true, decide_eq_true_eq, not_or] at unescaped
      rw [cooked_cons unescaped.1.1 plain, ih]

-- ---------------------------------------------------------------------------
-- The literal of a module
-- ---------------------------------------------------------------------------

/-- What stands between the first backtick of a source and its last. -/
def literalText (source : String) : List Char :=
  ((source.toList.dropWhile (· != backtick)).tail.rdropWhile (· != backtick)).dropLast

theorem literalText_wrap (document : String) :
    literalText (wrap document) = escape document.toList := by
  have before : ∀ c ∈ "export default JSON.parse(".toList, (c != backtick) = true :=
    List.all_eq_true.1 (by decide)
  have source : (wrap document).toList =
      "export default JSON.parse(".toList ++
        (backtick :: (escape document.toList ++ [backtick]) ++ ");".toList) := by
    rw [toList_wrap]
    simp
  have from_first : (wrap document).toList.dropWhile (· != backtick) =
      backtick :: (escape document.toList ++ [backtick]) ++ ");".toList := by
    rw [source, List.dropWhile_append_of_pos before]
    rfl
  have to_last : (escape document.toList ++ [backtick] ++ ");".toList).rdropWhile (· != backtick) =
      escape document.toList ++ [backtick] := by
    simp [List.rdropWhile, backtick]
  unfold literalText
  rw [from_first, List.cons_append, List.tail_cons, to_last, List.dropLast_concat]

/-- The value of the literal a document is put into is the document with its line endings
normalised. So it is the document itself exactly for a document without a carriage return. -/
theorem cooked_wrap (document : String) :
    cooked (literalText (wrap document)) = newlines document.toList ∧
      (cooked (literalText (wrap document)) = document.toList ↔ '\r' ∉ document.toList) := by
  rw [literalText_wrap, cooked_escape]
  exact ⟨rfl, newlines_eq_self⟩

/-- A document that is one carriage return does not come back. -/
theorem cooked_wrap_return :
    ¬ ∀ document : String, cooked (literalText (wrap document)) = document.toList := by
  intro same
  have : cooked (literalText (wrap "\r")) = "\r".toList := same "\r"
  exact absurd this (by decide)

end Esm.JsonModule
