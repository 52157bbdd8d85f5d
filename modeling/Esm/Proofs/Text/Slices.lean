-- SUMMARY: Pieces of a text between byte offsets, and when there is such a piece.
import Esm.Text.Position

/-!
# Slices

A slice is the piece of a text between two byte offsets. There is one exactly if the offsets are in
order and at each of them a character starts or the text ends. Main statement:
`slice?_eq_some_iff`.
-/

namespace Esm.Text

/-- At this byte offset a character starts, or the text ends. -/
def IsBoundary (text : List Char) (offset : Nat) : Prop :=
  ∃ before after, before ++ after = text ∧ byteLength before = offset

/-- Cut a text in two at a byte offset. There is no cut past the end or inside a character. -/
def cut? : List Char → Nat → Option (List Char × List Char)
  | text, 0 => some ([], text)
  | [], _ + 1 => none
  | c :: text, offset + 1 =>
    if c.utf8Size ≤ offset + 1 then
      (cut? text (offset + 1 - c.utf8Size)).map fun (before, after) => (c :: before, after)
    else none

/-- The piece of a text between two byte offsets. -/
def slice? (text : List Char) (start stop : Nat) : Option (List Char) :=
  if start ≤ stop then do
    let (_, behind) ← cut? text start
    let (piece, _) ← cut? behind (stop - start)
    some piece
  else none

variable {text before after piece : List Char} {start stop offset : Nat}

theorem cut?_append (before after : List Char) :
    cut? (before ++ after) (byteLength before) = some (before, after) := by
  induction before with
  | nil => cases after <;> rfl
  | cons c before ih =>
    obtain ⟨offset, size⟩ : ∃ offset, byteLength (c :: before) = offset + 1 :=
      Nat.exists_eq_add_one.2 (Nat.add_pos_left c.utf8Size_pos _)
    have more : offset + 1 - c.utf8Size = byteLength before := by
      rw [← size, byteLength_cons, Nat.add_sub_cancel_left]
    have fits : c.utf8Size ≤ offset + 1 := by
      rw [← size]
      exact Nat.le_add_right _ _
    rw [size, List.cons_append, cut?, if_pos fits, more, ih]
    rfl

theorem cut?_eq_some_iff :
    cut? text offset = some (before, after) ↔ before ++ after = text ∧ byteLength before = offset := by
  constructor
  · intro cut
    fun_induction cut? text offset generalizing before with
    | case1 text =>
      cases cut
      exact ⟨rfl, rfl⟩
    | case2 => cases cut
    | case3 c text offset fits ih =>
      obtain ⟨⟨before', after'⟩, cut', same⟩ := Option.map_eq_some_iff.1 cut
      cases same
      obtain ⟨whole, size⟩ := ih cut'
      refine ⟨congrArg (c :: ·) whole, ?_⟩
      rw [byteLength_cons, size]
      omega
    | case4 => cases cut
  · rintro ⟨rfl, rfl⟩
    exact cut?_append before after

/-- There is a slice where the text can be cut at both its ends. -/
theorem slice?_eq_some_iff : slice? text start stop = some piece ↔
    ∃ before after, before ++ (piece ++ after) = text ∧ byteLength before = start ∧
      byteLength (before ++ piece) = stop := by
  unfold slice?
  constructor
  · intro sliced
    split at sliced
    · rename_i ordered
      obtain ⟨⟨before, behind⟩, first, sliced⟩ := Option.bind_eq_some_iff.1 sliced
      obtain ⟨⟨piece', after⟩, second, same⟩ := Option.bind_eq_some_iff.1 sliced
      cases same
      obtain ⟨whole, start_eq⟩ := cut?_eq_some_iff.1 first
      obtain ⟨whole', size⟩ := cut?_eq_some_iff.1 second
      refine ⟨before, after, by rw [whole', whole], start_eq, ?_⟩
      rw [byteLength_append, start_eq, size, Nat.add_sub_cancel' ordered]
    · cases sliced
  · rintro ⟨before, after, rfl, rfl, rfl⟩
    rw [byteLength_append, if_pos (Nat.le_add_right _ _), cut?_append, Nat.add_sub_cancel_left]
    show (cut? (piece ++ after) (byteLength piece) >>= _) = _
    rw [cut?_append]
    rfl

/-- The characters from the start to a boundary. -/
theorem slice?_zero (before after : List Char) :
    slice? (before ++ after) 0 (byteLength before) = some before :=
  slice?_eq_some_iff.2 ⟨[], after, rfl, rfl, rfl⟩

/-- The characters from a boundary to the end. -/
theorem slice?_end (before after : List Char) :
    slice? (before ++ after) (byteLength before) (byteLength (before ++ after)) = some after :=
  slice?_eq_some_iff.2 ⟨before, [], by rw [List.append_nil], rfl, rfl⟩

theorem isBoundary_end (text : List Char) : IsBoundary text (byteLength text) :=
  ⟨text, [], List.append_nil text, rfl⟩

/-- Of two boundaries the later one has more text before it. -/
theorem IsBoundary.split (first : IsBoundary text start) (second : IsBoundary text stop)
    (before : start < stop) : ∃ ended more behind, more ≠ [] ∧ ended ++ (more ++ behind) = text ∧
      byteLength ended = start ∧ byteLength (ended ++ more) = stop := by
  obtain ⟨ended, rest, whole, rfl⟩ := first
  obtain ⟨ended', rest', whole', rfl⟩ := second
  obtain ⟨more, rfl, rfl⟩ | ⟨more, rfl, rfl⟩ :=
    List.append_eq_append_iff.1 (whole.trans whole'.symm)
  · refine ⟨ended, more, rest', ?_, whole, rfl, rfl⟩
    rintro rfl
    simp at before
  · rw [byteLength_append] at before
    omega

end Esm.Text
