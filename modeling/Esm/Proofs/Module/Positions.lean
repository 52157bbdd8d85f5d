-- SUMMARY: The line and column of a syntax error tell one place in the source.
import Esm.Proofs.Offsets.Compile

/-!
# Positions of syntax errors

A syntax error tells a line and a column. Places grow with the offset, so no two boundaries of a source
have the same, and from its place the offset is found again. Main statement: `positions_faithful`.
-/

namespace Esm.Module

open Text

/-- Places grow with the boundaries of a source, from line 1 and column 1 on. Each leads back to its
boundary, past the line feeds of the lines and then the characters of the columns before it, so the
place of a syntax error is that of one boundary only. -/
theorem positions_faithful (source : String) :
    (∀ i j, IsBoundary source.toList i → IsBoundary source.toList j → i < j →
      Position.ofOffset source i < Position.ofOffset source j) ∧
    Position.ofOffset source 0 = ⟨1, 1⟩ ∧
    (∀ i, IsBoundary source.toList i →
      (Position.ofOffset source i).offset source.toList = i) ∧
    ∀ name e, compile source name = .error e → ∃! offset,
      IsBoundary source.toList offset ∧ Position.ofOffset source offset = e.position := by
  refine ⟨fun i j => ofOffset_lt, ofOffset_zero source, fun i => offset_ofOffset, ?_⟩
  intro name e refused
  obtain ⟨offset, boundary, place⟩ := Offsets.refused_at_boundary refused
  refine ⟨offset, ⟨boundary, place⟩, ?_⟩
  rintro other ⟨boundary', place'⟩
  rw [← offset_ofOffset boundary', place', ← place, offset_ofOffset boundary]

end Esm.Module
