-- SUMMARY: A path reduced behind a relative specifier is no longer than it was, and has no new characters.
import Esm.FileTree.Walk
import Esm.Proofs.Path.Reduction

/-!
# Bytes of a path

A path is as long as its segments with a slash behind each, but for the last slash. Each part that
reduction keeps comes from a segment that is as long, and a leading dot is paid for by the dots that a
relative specifier starts with. So the text of the reduced path is no longer than the path that a
relative specifier was joined to.
-/

namespace Esm.Path

open Text

-- ---------------------------------------------------------------------------
-- Segments
-- ---------------------------------------------------------------------------

/-- The bytes of segments, with a slash behind each. -/
def segmentBytes : List String → Nat
  | [] => 0
  | segment :: rest => segment.utf8ByteSize + 1 + segmentBytes rest

theorem segmentBytes_append (ss ts : List String) :
    segmentBytes (ss ++ ts) = segmentBytes ss + segmentBytes ts := by
  induction ss with
  | nil => exact (Nat.zero_add _).symm
  | cons s ss ih => simp only [List.cons_append, segmentBytes, ih, Nat.add_assoc]

theorem utf8ByteSize_intercalate {segments : List String} (proper : segments ≠ []) :
    ("/".intercalate segments).utf8ByteSize + 1 = segmentBytes segments := by
  induction segments with
  | nil => exact absurd rfl proper
  | cons first rest ih =>
    cases rest with
    | nil => rw [String.intercalate_singleton, segmentBytes, segmentBytes]
    | cons second rest =>
      have slash : "/".utf8ByteSize = 1 := rfl
      rw [String.intercalate_cons_cons, segmentBytes, ← ih (List.cons_ne_nil _ _),
        String.utf8ByteSize_append, String.utf8ByteSize_append, slash]
      omega

theorem joinSegments_eq_intercalate (separator : Char) (ss : List (List Char)) :
    joinSegments separator ss = [separator].intercalate ss := by
  induction ss with
  | nil => rfl
  | cons first rest ih =>
    cases rest with
    | nil => rw [joinSegments, List.intercalate_singleton]
    | cons second rest =>
      rw [joinSegments, ih, List.intercalate_cons_cons, List.append_assoc, List.singleton_append]
      exact List.cons_ne_nil _ _

theorem intercalate_split (path : String) : "/".intercalate (split '/' path) = path := by
  have texts : (split '/' path).map String.toList = segments '/' path.toList := by
    rw [split, List.map_map]
    exact List.map_id'' (fun _ => String.toList_ofList) _
  apply String.toList_injective
  rw [String.toList_intercalate, texts]
  exact (joinSegments_eq_intercalate '/' _).symm.trans (joinSegments_segments '/' path.toList)

theorem segmentBytes_split (path : String) :
    segmentBytes (split '/' path) = path.utf8ByteSize + 1 := by
  have proper : split '/' path ≠ [] := mt List.map_eq_nil_iff.1 (segments_ne_nil _ _)
  rw [← utf8ByteSize_intercalate proper, intercalate_split]

theorem mem_intercalate {segments : List String} {c : Char} :
    c ∈ ("/".intercalate segments).toList → c = '/' ∨ ∃ segment ∈ segments, c ∈ segment.toList := by
  induction segments with
  | nil => exact fun mem => absurd mem List.not_mem_nil
  | cons first rest ih =>
    cases rest with
    | nil =>
      intro mem
      rw [String.intercalate_singleton] at mem
      exact Or.inr ⟨first, List.mem_cons_self, mem⟩
    | cons second rest =>
      intro mem
      rw [String.intercalate_cons_cons, String.toList_append, String.toList_append] at mem
      obtain mem | mem := List.mem_append.1 mem
      · obtain mem | mem := List.mem_append.1 mem
        · exact Or.inr ⟨first, List.mem_cons_self, mem⟩
        · exact Or.inl (List.mem_singleton.1 mem)
      · obtain slash | ⟨segment, among, mem⟩ := ih mem
        · exact Or.inl slash
        · exact Or.inr ⟨segment, List.mem_cons_of_mem first among, mem⟩

theorem mem_of_mem_segment {separator c : Char} {s cs : List Char}
    (among : s ∈ segments separator cs) (mem : c ∈ s) : c ∈ cs := by
  induction cs generalizing s with
  | nil =>
    obtain rfl := List.mem_singleton.1 among
    exact mem
  | cons d cs ih =>
    unfold segments at among
    split at among
    · obtain rfl | among := List.mem_cons.1 among
      · exact absurd mem List.not_mem_nil
      · exact List.mem_cons_of_mem d (ih among mem)
    · split at among
      · rename_i none
        exact absurd none (segments_ne_nil separator cs)
      · rename_i first rest parts
        rw [parts] at ih
        obtain rfl | among := List.mem_cons.1 among
        · obtain rfl | mem := List.mem_cons.1 mem
          · exact List.mem_cons_self
          · exact List.mem_cons_of_mem d (ih List.mem_cons_self mem)
        · exact List.mem_cons_of_mem d (ih (List.mem_cons_of_mem first among) mem)

/-- The characters of a name are characters of the path. -/
theorem mem_of_mem_name {path name : String} {c : Char} (among : .name name ∈ parts path)
    (mem : c ∈ name.toList) : c ∈ path.toList := by
  obtain among | among := List.mem_append.1 among
  · obtain ⟨other, -⟩ | ⟨other, -⟩ := mem_lead among <;> cases other
  obtain ⟨segment, among, part⟩ := List.mem_filterMap.1 among
  obtain ⟨cs, among', rfl⟩ := List.mem_map.1 among
  unfold Part.ofSegment at part
  split at part
  · cases part
  split at part
  · cases part
  · cases part
    rw [String.toList_ofList] at mem
    exact mem_of_mem_segment among' mem

namespace Reduced

/-- The characters of a reduced path are slashes, dots and those of its names. -/
theorem mem_text {r : Reduced} {c : Char} (mem : c ∈ r.text.toList) :
    c = '/' ∨ c = '.' ∨ ∃ name ∈ r.names, c ∈ name.toList := by
  have named : ∀ {names : List String}, c ∈ ("/".intercalate names).toList →
      c = '/' ∨ c = '.' ∨ ∃ name ∈ names, c ∈ name.toList :=
    fun mem => (mem_intercalate mem).imp_right Or.inr
  cases r with
  | absolute names =>
    rw [text, String.toList_append] at mem
    obtain mem | mem := List.mem_append.1 mem
    · exact Or.inl (List.mem_singleton.1 mem)
    · exact named mem
  | relative ups names =>
    cases ups with
    | zero =>
      rw [text, String.toList_append] at mem
      obtain mem | mem := List.mem_append.1 mem
      · obtain rfl | mem := List.mem_cons.1 (show c ∈ ['.', '/'] from mem)
        · exact Or.inr (Or.inl rfl)
        · exact Or.inl (List.mem_singleton.1 mem)
      · exact named mem
    | succ ups =>
      obtain slash | dot | ⟨segment, among, mem⟩ := named mem
      · exact Or.inl slash
      · exact Or.inr (Or.inl dot)
      obtain among | among := List.mem_append.1 among
      · rw [List.eq_of_mem_replicate among] at mem
        have dots : c ∈ List.replicate 2 '.' := mem
        exact Or.inr (Or.inl (List.eq_of_mem_replicate dots))
      · exact Or.inr (Or.inr ⟨segment, among, mem⟩)

-- ---------------------------------------------------------------------------
-- Sizes
-- ---------------------------------------------------------------------------

/-- The bytes of the parts of a reduced path, with a slash behind each. -/
def weight : Reduced → Nat
  | .absolute names => segmentBytes names
  | .relative ups names => 3 * ups + segmentBytes names

/-- The bytes that the text starts with: a slash, or a dot with a slash. -/
def debt : Reduced → Nat
  | .absolute _ => 1
  | .relative 0 _ => 2
  | .relative (_ + 1) _ => 0

theorem segmentBytes_replicate (ups : Nat) : segmentBytes (List.replicate ups "..") = 3 * ups := by
  induction ups with
  | zero => rfl
  | succ ups ih =>
    have dots : "..".utf8ByteSize = 2 := rfl
    rw [List.replicate_succ, segmentBytes, ih, dots]
    omega

/-- A text has one slash less than segments, unless nothing stands behind its first one. -/
theorem utf8ByteSize_text_le (r : Reduced) :
    r.text.utf8ByteSize ≤ 2 ∨ r.text.utf8ByteSize + 1 ≤ r.weight + r.debt := by
  have slash : "/".utf8ByteSize = 1 := rfl
  have dot : "./".utf8ByteSize = 2 := rfl
  cases r with
  | absolute names =>
    by_cases none : names = []
    · subst none
      exact Or.inl (by decide)
    · have size := utf8ByteSize_intercalate none
      rw [text, weight, debt, String.utf8ByteSize_append, slash]
      omega
  | relative ups names =>
    cases ups with
    | zero =>
      by_cases none : names = []
      · subst none
        exact Or.inl (by decide)
      · have size := utf8ByteSize_intercalate none
        rw [text, weight, debt, String.utf8ByteSize_append, dot]
        omega
    | succ ups =>
      have some : List.replicate (ups + 1) ".." ++ names ≠ [] := by simp
      have size := utf8ByteSize_intercalate some
      rw [segmentBytes_append, segmentBytes_replicate] at size
      exact Or.inr (Nat.le_of_eq size)

end Reduced

/-- The step that a segment asks for. -/
def Part.ofStep (segment : String) : Part := (Part.ofSegment segment).getD .here

theorem ofStep_cases (segment : String) : Part.ofStep segment = .here ∨
    segment = ".." ∧ Part.ofStep segment = .up ∨ Part.ofStep segment = .name segment := by
  unfold Part.ofStep Part.ofSegment
  split
  · exact Or.inl rfl
  · split
    · rename_i up
      exact Or.inr (Or.inl ⟨up, rfl⟩)
    · exact Or.inr (Or.inr rfl)

namespace Reduced

theorem segmentBytes_concat (before : List String) (last : String) :
    segmentBytes (before ++ [last]) = segmentBytes before + (last.utf8ByteSize + 1) :=
  segmentBytes_append before [last]

/-- A step adds no more than its segment has. -/
theorem weight_push_le (r : Reduced) (segment : String) :
    (r.push (.ofStep segment)).weight ≤ r.weight + (segment.utf8ByteSize + 1) := by
  obtain here | ⟨rfl, up⟩ | name := ofStep_cases segment
  · rw [here]
    exact Nat.le_add_right _ _
  · rw [up]
    have dots : "..".utf8ByteSize = 2 := rfl
    cases r with
    | absolute names =>
      obtain rfl | ⟨before, last, rfl⟩ := names_cases names
      · exact Nat.zero_le _
      · rw [absolute_concat_up, weight, weight, segmentBytes_concat]
        omega
    | relative ups names =>
      obtain rfl | ⟨before, last, rfl⟩ := names_cases names
      · rw [push, weight, weight, dots]
        omega
      · rw [relative_concat_up, weight, weight, segmentBytes_concat]
        omega
  · rw [name]
    cases r <;> simp only [push, weight, segmentBytes_concat] <;> omega

theorem debt_push_le (r : Reduced) (segment : String) : (r.push (.ofStep segment)).debt ≤ r.debt := by
  obtain here | ⟨rfl, up⟩ | name := ofStep_cases segment
  · rw [here]
    exact Nat.le_refl _
  · rw [up]
    cases r with
    | absolute names => exact Nat.le_refl _
    | relative ups names =>
      obtain rfl | ⟨before, last, rfl⟩ := names_cases names
      · exact Nat.zero_le _
      · rw [relative_concat_up]
        cases ups <;> exact Nat.le_refl _
  · rw [name]
    cases r with
    | absolute names => exact Nat.le_refl _
    | relative ups names => cases ups <;> exact Nat.le_refl _

theorem foldl_push_le (r : Reduced) (segments : List String) :
    ((segments.map Part.ofStep).foldl push r).weight ≤ r.weight + segmentBytes segments ∧
      ((segments.map Part.ofStep).foldl push r).debt ≤ r.debt := by
  induction segments generalizing r with
  | nil => exact ⟨Nat.le_refl _, Nat.le_refl _⟩
  | cons segment segments ih =>
    obtain ⟨weight, debt⟩ := ih (r.push (.ofStep segment))
    have first := weight_push_le r segment
    rw [List.map_cons, List.foldl_cons, segmentBytes]
    exact ⟨by omega, Nat.le_trans debt (debt_push_le r segment)⟩

/-- The dots that a relative specifier starts with pay for the start of the text. -/
theorem weight_push_dots_le (r : Reduced) {dots : String} (start : dots = "." ∨ dots = "..") :
    (r.push (.ofStep dots)).weight + (r.push (.ofStep dots)).debt ≤
      r.weight + (dots.utf8ByteSize + 1) := by
  have one : ".".utf8ByteSize = 1 := rfl
  have two : "..".utf8ByteSize = 2 := rfl
  obtain rfl | rfl := start
  · have debt : r.debt ≤ 2 := by
      cases r with
      | absolute names => exact Nat.le_succ 1
      | relative ups names =>
        cases ups with
        | zero => exact Nat.le_refl 2
        | succ ups => exact Nat.zero_le 2
    have stays : r.push (.ofStep ".") = r := by cases r <;> rfl
    rw [stays]
    omega
  · have up : Part.ofStep ".." = .up := rfl
    rw [up]
    cases r with
    | absolute names =>
      obtain rfl | ⟨before, last, rfl⟩ := names_cases names
      · exact by decide
      · rw [absolute_concat_up, weight, weight, segmentBytes_concat, debt]
        omega
    | relative ups names =>
      obtain rfl | ⟨before, last, rfl⟩ := names_cases names
      · rw [push, weight, weight, debt, two]
        omega
      · rw [relative_concat_up, weight, weight, segmentBytes_concat]
        cases ups <;> simp only [debt] <;> omega

theorem foldl_filterMap_ofSegment (r : Reduced) (segments : List String) :
    (segments.filterMap Part.ofSegment).foldl push r =
      (segments.map Part.ofStep).foldl push r := by
  induction segments generalizing r with
  | nil => rfl
  | cons segment segments ih =>
    rw [List.map_cons, List.foldl_cons, Part.ofStep]
    cases part : Part.ofSegment segment with
    | none =>
      rw [List.filterMap_cons_none part, ih]
      rfl
    | some p =>
      rw [List.filterMap_cons_some part, List.foldl_cons, ih]
      rfl

/-- A path is reduced segment by segment. -/
theorem ofParts_parts_split (path : String) : ofParts (Path.parts path) =
    ((split '/' path).map Part.ofStep).foldl push
      (if Path.isAbsolute path then .absolute [] else here) := by
  rw [parts_eq, ofParts_append, body, foldl_filterMap_ofSegment]
  congr 1
  unfold Path.lead
  split
  · rfl
  · split <;> rfl

/-- A path with a segment of dots behind another one does not get longer when it is reduced. -/
theorem utf8ByteSize_text_ofParts_le {before dots more : String} (start : dots = "." ∨ dots = "..") :
    (ofParts (Path.parts (before ++ "/" ++ (dots ++ "/" ++ more)))).text.utf8ByteSize ≤
      (before ++ "/" ++ (dots ++ "/" ++ more)).utf8ByteSize := by
  generalize whole : before ++ "/" ++ (dots ++ "/" ++ more) = path
  have absent : '/' ∉ dots.toList := by obtain rfl | rfl := start <;> decide
  have segments : split '/' path = split '/' before ++ dots :: split '/' more := by
    rw [← whole, split_append, split_append, split_of_not_mem absent, List.singleton_append]
  have size := segmentBytes_split path
  rw [segments, segmentBytes_append, segmentBytes] at size
  obtain ⟨r, weightless, steps⟩ : ∃ r : Reduced, r.weight = 0 ∧ ofParts (Path.parts path) =
      ((split '/' path).map Part.ofStep).foldl push r := by
    refine ⟨_, ?_, ofParts_parts_split path⟩
    split <;> rfl
  rw [segments, List.map_append, List.foldl_append, List.map_cons, List.foldl_cons] at steps
  have first := (foldl_push_le r (split '/' before)).1
  have middle := weight_push_dots_le (((split '/' before).map Part.ofStep).foldl push r) start
  have last := foldl_push_le ((((split '/' before).map Part.ofStep).foldl push r).push (.ofStep dots))
    (split '/' more)
  rw [← steps] at last
  have proper : 1 ≤ dots.utf8ByteSize := by obtain rfl | rfl := start <;> decide
  have before' := segmentBytes_split before
  have more' := segmentBytes_split more
  obtain short | long := utf8ByteSize_text_le (ofParts (Path.parts path)) <;> omega

end Reduced

end Esm.Path
