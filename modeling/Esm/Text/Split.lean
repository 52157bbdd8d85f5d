-- SUMMARY: Splitting text at a separator, and trimming white space.
import Esm.Text.Blank

/-!
# Splitting

Text splits at each separator into one more segment than it has separators; joining the segments
again gives the text back.
-/

namespace Esm.Text

/-- The segments between the separators of a text. There is at least one. -/
def segments (separator : Char) : List Char → List (List Char)
  | [] => [[]]
  | c :: cs =>
    if c = separator then [] :: segments separator cs
    else
      match segments separator cs with
      | [] => [[c]]
      | s :: rest => (c :: s) :: rest

/-- Put segments together with a separator between each two. -/
def joinSegments (separator : Char) : List (List Char) → List Char
  | [] => []
  | [s] => s
  | s :: rest => s ++ separator :: joinSegments separator rest

theorem segments_ne_nil (separator : Char) (cs : List Char) : segments separator cs ≠ [] := by
  cases cs with
  | nil => simp [segments]
  | cons c cs =>
    simp only [segments]
    split
    · simp
    · split <;> simp

theorem joinSegments_segments (separator : Char) (cs : List Char) :
    joinSegments separator (segments separator cs) = cs := by
  induction cs with
  | nil => rfl
  | cons c cs ih =>
    simp only [segments]
    split
    · rename_i h
      subst h
      cases split : segments c cs with
      | nil => exact absurd split (segments_ne_nil _ _)
      | cons s rest => rw [split] at ih; simp [joinSegments, ih]
    · cases split : segments separator cs with
      | nil => exact absurd split (segments_ne_nil _ _)
      | cons s rest =>
        rw [split] at ih
        cases rest with
        | nil => simp_all [joinSegments]
        | cons => simp_all [joinSegments]

/-- The segments of a string. -/
def split (separator : Char) (s : String) : List String :=
  (segments separator s.toList).map String.ofList

/-- Text without the white space at both its ends. -/
def trim (cs : List Char) : List Char :=
  ((cs.dropWhile isWhitespace).reverse.dropWhile isWhitespace).reverse

/-- Split text at the last separator, if it has one. -/
def splitLast (separator : Char) : List Char → Option (List Char × List Char)
  | [] => none
  | c :: cs =>
    match splitLast separator cs with
    | some (before, after) => some (c :: before, after)
    | none => if c = separator then some ([], cs) else none

theorem splitLast_eq_none {separator : Char} {cs : List Char} :
    splitLast separator cs = none ↔ separator ∉ cs := by
  induction cs with
  | nil => exact ⟨fun _ => List.not_mem_nil, fun _ => rfl⟩
  | cons c cs ih =>
    unfold splitLast
    cases last : splitLast separator cs with
    | some parts =>
      have mem : separator ∈ cs := by
        apply Classical.byContradiction
        intro absent
        rw [ih.2 absent] at last
        cases last
      simp [mem]
    | none =>
      have absent := ih.1 last
      by_cases same : c = separator
      · simp [same]
      · simp [same, absent, Ne.symm same]

/-- Text is split where no separator follows. -/
theorem splitLast_eq_some {separator : Char} {cs before after : List Char}
    (last : splitLast separator cs = some (before, after)) :
    cs = before ++ separator :: after ∧ separator ∉ after := by
  induction cs generalizing before with
  | nil => cases last
  | cons c cs ih =>
    unfold splitLast at last
    cases later : splitLast separator cs with
    | some parts =>
      rw [later] at last
      cases last
      obtain ⟨whole, absent⟩ := ih later
      exact ⟨congrArg (c :: ·) whole, absent⟩
    | none =>
      rw [later] at last
      dsimp only at last
      split at last
      · rename_i same
        cases last
        exact ⟨by rw [same]; rfl, splitLast_eq_none.1 later⟩
      · cases last

end Esm.Text
