-- SUMMARY: Lines and columns grow with the offset, and lead back to it.
import Esm.Proofs.Text.Slices
import Esm.Text.Split

/-!
# Lines and columns

The place at an offset can be told by looking back: the line feeds before the offset are counted,
and the characters behind the last of them. Looking forward, as many line feeds and then as many
characters lead from the place to the offset again. Main statements: `position?_eq`, `ofOffset_lt`,
`offset_ofOffset`.
-/

namespace Esm.Text

-- ---------------------------------------------------------------------------
-- Order
-- ---------------------------------------------------------------------------

namespace Position

/-- Places come in the order of their lines, and on a line in the order of their columns. -/
instance : LT Position := ⟨fun p q => p.line < q.line ∨ p.line = q.line ∧ p.column < q.column⟩

theorem lt_iff {p q : Position} :
    p < q ↔ p.line < q.line ∨ p.line = q.line ∧ p.column < q.column := Iff.rfl

theorem lt_trans {p q r : Position} (first : p < q) (second : q < r) : p < r := by
  rw [lt_iff] at *
  omega

theorem lt_advance (p : Position) (c : Char) : p < p.advance c := by
  rw [lt_iff]
  unfold advance
  split
  · exact Or.inl (Nat.lt_succ_self _)
  · exact Or.inr ⟨rfl, Nat.lt_succ_self _⟩

theorem lt_foldl_advance (p : Position) {more : List Char} (some_ : more ≠ []) :
    p < more.foldl advance p := by
  induction more generalizing p with
  | nil => exact absurd rfl some_
  | cons c more ih =>
    cases more with
    | nil => exact lt_advance p c
    | cons d more => exact lt_trans (lt_advance p c) (ih (p.advance c) (List.cons_ne_nil d more))

/-- Where more text comes before it, a place comes later. -/
theorem after_lt (before : List Char) {more : List Char} (some_ : more ≠ []) :
    after before < after (before ++ more) := by
  unfold after
  rw [List.foldl_append]
  exact lt_foldl_advance _ some_

-- ---------------------------------------------------------------------------
-- Looking back
-- ---------------------------------------------------------------------------

/-- On one line the column grows by one for each character. -/
theorem foldl_advance_line {line : List Char} (plain : '\n' ∉ line) (p : Position) :
    line.foldl advance p = ⟨p.line, p.column + line.length⟩ := by
  induction line generalizing p with
  | nil => rfl
  | cons c line ih =>
    have other : c ≠ '\n' := Ne.symm (List.ne_of_not_mem_cons plain)
    rw [List.foldl_cons, ih (List.not_mem_of_not_mem_cons plain), advance, if_neg other,
      List.length_cons]
    simp only [Position.mk.injEq, true_and]
    omega

theorem line_foldl_advance (text : List Char) (p : Position) :
    (text.foldl advance p).line = p.line + text.count '\n' := by
  induction text generalizing p with
  | nil => rfl
  | cons c text ih =>
    rw [List.foldl_cons, ih, List.count_cons, advance]
    by_cases feed : c = '\n'
    · simp only [feed, if_true, BEq.rfl]
      omega
    · simp only [feed, if_false, beq_iff_eq]
      omega

theorem after_line {line : List Char} (plain : '\n' ∉ line) : after line = ⟨1, line.length + 1⟩ := by
  unfold after
  rw [foldl_advance_line plain, Nat.add_comm line.length]
  rfl

theorem after_feed {line : List Char} (plain : '\n' ∉ line) (text : List Char) :
    after (text ++ '\n' :: line) = ⟨text.count '\n' + 2, line.length + 1⟩ := by
  have feeds : (after text).line = 1 + text.count '\n' := line_foldl_advance text start
  unfold after
  rw [List.foldl_append, List.foldl_cons, foldl_advance_line plain]
  show (⟨(after text).line + 1, 1 + line.length⟩ : Position) = _
  rw [feeds, Position.mk.injEq]
  omega

end Position

/-- The place at a byte offset, or at the end of the text if that comes first: the line feeds before
it are counted, and the characters behind the last of them. -/
def position? (text : List Char) (offset : Nat) : Option Position := do
  let before ← slice? text 0 (min offset (byteLength text))
  let line := before.count '\n' + 1
  match splitLast '\n' before with
  | some (ended, _) =>
    let last ← slice? before (byteLength ended + 1) (byteLength before)
    some ⟨line, last.length + 1⟩
  | none => some ⟨line, before.length + 1⟩

theorem position?_append (before behind : List Char) :
    position? (before ++ behind) (byteLength before) = some (Position.after before) := by
  have first : min (byteLength before) (byteLength (before ++ behind)) = byteLength before := by
    rw [byteLength_append]
    exact Nat.min_eq_left (Nat.le_add_right _ _)
  unfold position?
  rw [first, slice?_zero]
  show (match splitLast '\n' before with
    | some (ended, _) => _
    | none => _) = _
  cases parts : splitLast '\n' before with
  | none =>
    have plain := splitLast_eq_none.1 parts
    rw [Position.after_line plain, List.count_eq_zero.2 plain]
  | some parts' =>
    obtain ⟨ended, line⟩ := parts'
    obtain ⟨rfl, plain⟩ := splitLast_eq_some parts
    have whole : ended ++ '\n' :: line = (ended ++ ['\n']) ++ line := by simp
    have size : byteLength ended + 1 = byteLength (ended ++ ['\n']) := by
      rw [byteLength_append]
      rfl
    have last : slice? (ended ++ '\n' :: line) (byteLength ended + 1)
        (byteLength (ended ++ '\n' :: line)) = some line := by
      rw [whole, size, slice?_end]
    rw [Position.after_feed plain]
    simp only [last, List.count_append, List.count_cons_self, List.count_eq_zero.2 plain]
    rfl

/-- The text before a boundary decides about the place there. -/
theorem ofOffset_append {source : String} {before behind : List Char}
    (whole : before ++ behind = source.toList) :
    Position.ofOffset source (byteLength before) = Position.after before := by
  unfold Position.ofOffset
  rw [← whole, charsBefore_byteLength]

/-- At a boundary there is a place, the one that counting from the start comes to. -/
theorem position?_eq {source : String} {offset : Nat} (boundary : IsBoundary source.toList offset) :
    position? source.toList offset = some (Position.ofOffset source offset) := by
  obtain ⟨before, behind, whole, rfl⟩ := boundary
  rw [ofOffset_append whole, ← whole, position?_append]

-- ---------------------------------------------------------------------------
-- Looking forward
-- ---------------------------------------------------------------------------

/-- The byte offset behind a number of line feeds and then a number of characters. -/
def offsetBehind : (text : List Char) → (feeds characters : Nat) → Nat
  | text, 0, characters => byteLength (text.take characters)
  | [], _ + 1, _ => 0
  | c :: text, feeds + 1, characters =>
    c.utf8Size + offsetBehind text (if c = '\n' then feeds else feeds + 1) characters

/-- The byte offset at a place: behind the line feeds of the lines before it and the characters of
the columns before it. -/
def Position.offset (text : List Char) (p : Position) : Nat :=
  offsetBehind text (p.line - 1) (p.column - 1)

theorem offsetBehind_zero (text : List Char) (characters : Nat) :
    offsetBehind text 0 characters = byteLength (text.take characters) := by
  cases text <;> rfl

theorem offsetBehind_feed (ended behind : List Char) (characters : Nat) :
    offsetBehind (ended ++ '\n' :: behind) (ended.count '\n' + 1) characters =
      byteLength (ended ++ ['\n']) + byteLength (behind.take characters) := by
  induction ended with
  | nil =>
    rw [List.nil_append, List.count_nil, offsetBehind, if_pos rfl, offsetBehind_zero]
    rfl
  | cons c ended ih =>
    have feeds : (if c = '\n' then (c :: ended).count '\n' else (c :: ended).count '\n' + 1) =
        ended.count '\n' + 1 := by
      rw [List.count_cons]
      by_cases feed : c = '\n'
      · simp [feed]
      · simp [feed]
    rw [List.cons_append, offsetBehind, feeds, ih, List.cons_append, byteLength_cons, Nat.add_assoc]

/-- The place behind some text leads back there. -/
theorem offset_after (before behind : List Char) :
    (Position.after before).offset (before ++ behind) = byteLength before := by
  unfold Position.offset
  cases parts : splitLast '\n' before with
  | none =>
    rw [Position.after_line (splitLast_eq_none.1 parts)]
    show offsetBehind _ 0 before.length = _
    rw [offsetBehind_zero, List.take_left' rfl]
  | some parts' =>
    obtain ⟨ended, line⟩ := parts'
    obtain ⟨rfl, plain⟩ := splitLast_eq_some parts
    rw [Position.after_feed plain, List.append_assoc, List.cons_append]
    show offsetBehind _ (ended.count '\n' + 1) line.length = _
    rw [offsetBehind_feed, List.take_left' rfl, ← byteLength_append]
    simp

-- ---------------------------------------------------------------------------
-- Places of a source
-- ---------------------------------------------------------------------------

section

variable {source : String} {i j : Nat}

theorem ofOffset_zero (source : String) : Position.ofOffset source 0 = ⟨1, 1⟩ :=
  ofOffset_append (List.nil_append source.toList)

theorem ofOffset_lt (first : IsBoundary source.toList i) (second : IsBoundary source.toList j)
    (before : i < j) : Position.ofOffset source i < Position.ofOffset source j := by
  obtain ⟨ended, more, behind, some_, whole, rfl, rfl⟩ := first.split second before
  rw [ofOffset_append whole, ofOffset_append ((List.append_assoc ended more behind).trans whole)]
  exact Position.after_lt ended some_

/-- The place at a boundary leads back to it. -/
theorem offset_ofOffset (boundary : IsBoundary source.toList i) :
    (Position.ofOffset source i).offset source.toList = i := by
  obtain ⟨before, behind, whole, rfl⟩ := boundary
  rw [ofOffset_append whole, ← whole, offset_after]

end

end Esm.Text
