-- SUMMARY: Putting a real path together leads where the walk of a reading leads, unless it gets too long.
import Mathlib.Data.List.Induction
import Esm.Proofs.FileTree.Collapsing
import Esm.Proofs.FileTree.Names

/-!
# Real paths

A file is read after one walk along its path. Its real path is put together name by name: at each name
the system is asked by the absolute path so far what stands there, and a link is replaced by its
target. These are two ways along the same path, and the second needs more: the paths that it asks
by have to be short enough for a system call, however short the path was that it began with. So what can
be read has the real path of the place where it was found, or none because a path on the way is too
long. Where no location has a path too long, it always has one.
-/

namespace Esm.FileTree

open Esm.Path

-- ---------------------------------------------------------------------------
-- Proper trees
-- ---------------------------------------------------------------------------

/-- There is a directory at a location. The root always is one. -/
def IsDirectory (files : FileTree) (location : Location) : Prop :=
  location = [] ∨ files.lookup location = some .directory

/-- Every location in use is reached through directories, by names that stand for themselves and are
not too long. So it is in any tree of files; there is a current directory as well. -/
structure Proper (files : FileTree) : Prop where
  plain : ∀ {location : Location} {entry : Entry}, files.lookup location = some entry →
    ∀ name ∈ location, IsPlain name
  noNul : ∀ {location : Location} {entry : Entry}, files.lookup location = some entry →
    ∀ name ∈ location, '\x00' ∉ name.toList
  shortName : ∀ {location : Location} {entry : Entry}, files.lookup location = some entry →
    ∀ name ∈ location, name.utf8ByteSize ≤ maxName
  inside : ∀ {dir : Location} {name : String} {entry : Entry},
    files.lookup (dir ++ [name]) = some entry → files.IsDirectory dir
  current : files.IsDirectory files.current

/-- Moreover every location can be spelled to the system: its path is not too long. -/
structure Spelled (files : FileTree) : Prop extends files.Proper where
  shortPath : ∀ {location : Location} {entry : Entry}, files.lookup location = some entry →
    (pathOf location).utf8ByteSize ≤ maxPath

variable {files : FileTree} {links : Nat}

instance (files : FileTree) (location : Location) : Decidable (files.IsDirectory location) :=
  inferInstanceAs (Decidable (_ ∨ _))

/-- A tree is proper if each of its entries is. -/
theorem Proper.ofEntries (current : files.IsDirectory files.current)
    (entries : ∀ e ∈ files.entries, files.IsDirectory e.1.dropLast ∧
      ∀ name ∈ e.1, IsPlain name ∧ '\x00' ∉ name.toList ∧ name.utf8ByteSize ≤ maxName) :
    files.Proper := by
  exact {
    plain := fun found name mem => ((entries _ (mem_entries found)).2 name mem).1
    noNul := fun found name mem => ((entries _ (mem_entries found)).2 name mem).2.1
    shortName := fun found name mem => ((entries _ (mem_entries found)).2 name mem).2.2
    inside := fun {dir name entry} found => by
      have above := (entries _ (mem_entries found)).1
      rwa [List.dropLast_concat] at above
    current := current }

/-- A proper tree can be spelled if each of its entries can. -/
theorem Spelled.ofEntries (proper : files.Proper)
    (short : ∀ e ∈ files.entries, (pathOf e.1).utf8ByteSize ≤ maxPath) : files.Spelled :=
  { proper with shortPath := fun found => short _ (mem_entries found) }

theorem Proper.above (proper : files.Proper) {dir : Location} {name : String}
    (at_ : files.IsDirectory (dir ++ [name])) : files.IsDirectory dir := by
  obtain none | found := at_
  · exact absurd none (List.append_ne_nil_of_right_ne_nil _ (List.cons_ne_nil _ _))
  · exact proper.inside found

/-- What is above a directory is one. -/
theorem Proper.directory_of_append (proper : files.Proper) {dir more : Location}
    (at_ : files.IsDirectory (dir ++ more)) : files.IsDirectory dir := by
  induction more using List.reverseRecOn with
  | nil => rwa [List.append_nil] at at_
  | append_singleton more name ih =>
    rw [← List.append_assoc] at at_
    exact ih (proper.above at_)

/-- A directory is reached by its names. -/
theorem Proper.walk_names (proper : files.Proper) {dir names : Location}
    (at_ : files.IsDirectory (dir ++ names)) :
    files.walk links dir (names.map .name) = .ok (.found (dir ++ names) .directory) := by
  induction names generalizing dir with
  | nil => rw [List.map_nil, walk, List.append_nil]
  | cons name names ih =>
    have whole : dir ++ name :: names = (dir ++ [name]) ++ names := by simp
    rw [whole] at at_ ⊢
    have found : files.lookup (dir ++ [name]) = some .directory := by
      obtain none | found := proper.directory_of_append at_
      · exact absurd none (List.append_ne_nil_of_right_ne_nil _ (List.cons_ne_nil _ _))
      · exact found
    have short := proper.shortName found name (List.mem_append_right _ List.mem_cons_self)
    rw [List.map_cons, walk_directory links short found]
    exact ih at_

/-- The steps of the path of a location are its names, from the root on. -/
theorem steps_pathOf {location : Location} (proper : location ≠ [])
    (plain : ∀ name ∈ location, IsPlain name) :
    steps (pathOf location) = .root :: .here :: location.map .name := by
  have some : location.map Part.name ≠ [] := mt List.map_eq_nil_iff.1 proper
  have named := map_ofStep_segments some (isStep_of_mem_names plain)
  rw [map_segment_name] at named
  rw [pathOf, steps_slash, named]

/-- What is looked up is what the system tells of the path, unless that is too long. -/
theorem Proper.inspect_pathOf (proper : files.Proper) {dir : Location} {name : String}
    {entry : Entry} (found : files.lookup (dir ++ [name]) = some entry) :
    files.inspect (pathOf (dir ++ [name])) =
      if (pathOf (dir ++ [name])).utf8ByteSize ≤ maxPath then .ok entry
      else .error .nameTooLong := by
  have text : (Reduced.absolute (dir ++ [name])).text = pathOf (dir ++ [name]) := rfl
  have noNul : '\x00' ∉ (pathOf (dir ++ [name])).toList := by
    intro nul
    obtain slash | dot | ⟨other, among, mem⟩ := Reduced.mem_text (text ▸ nul)
    · exact absurd slash (by decide)
    · exact absurd dot (by decide)
    · exact proper.noNul found other among mem
  have nonempty : pathOf (dir ++ [name]) ≠ "" := by
    intro empty
    have first := congrArg String.toList empty
    rw [pathOf, String.toList_append] at first
    cases first
  have steps := steps_pathOf (List.append_ne_nil_of_right_ne_nil dir (List.cons_ne_nil name []))
    (proper.plain found)
  rw [List.map_append, List.map_singleton] at steps
  have last : (FileTree.steps (pathOf (dir ++ [name]))).getLast? = some (.name name) := by
    rw [steps, ← List.cons_append, ← List.cons_append, List.getLast?_concat]
  have before : (FileTree.steps (pathOf (dir ++ [name]))).dropLast =
      .root :: .here :: dir.map .name := by
    rw [steps, ← List.cons_append, ← List.cons_append, List.dropLast_concat]
  have walked : files.walk maxLinks files.current (.root :: .here :: dir.map .name) =
      .ok (.found dir .directory) := by
    rw [walk, walk]
    exact proper.walk_names (proper.inside found)
  have short := proper.shortName found name (List.mem_append_right _ List.mem_cons_self)
  unfold inspect validate
  rw [if_neg noNul, if_neg nonempty]
  by_cases fits : (pathOf (dir ++ [name])).utf8ByteSize ≤ maxPath
  · simp only [if_neg (Nat.not_lt.2 fits), if_pos fits, last, before, walked, bind, Except.bind,
      if_neg (Nat.not_lt.2 short), found]
  · rw [if_pos (Nat.lt_of_not_le fits), if_neg fits]
    rfl

-- ---------------------------------------------------------------------------
-- The two walks
-- ---------------------------------------------------------------------------

/-- Some location has a path that is too long for a system call. -/
def TooLong (files : FileTree) : Prop :=
  ∃ location entry, files.lookup location = some entry ∧ maxPath < (pathOf location).utf8ByteSize

theorem Spelled.not_tooLong (spelled : files.Spelled) : ¬ files.TooLong := by
  rintro ⟨location, entry, found, long⟩
  exact Nat.not_le.2 long (spelled.shortPath found)

/-- Where a walk finds something, the location is put together that it finds it at, unless a path on
the way is too long. -/
theorem Proper.realWalk_of_walk (proper : files.Proper) {dir location : Location}
    {parts : List Part} {entry : Entry} (at_ : files.IsDirectory dir)
    (walked : files.walk links dir parts = .ok (.found location entry)) :
    files.realWalk links dir parts = .ok location ∨
      files.realWalk links dir parts = .error .nameTooLong ∧ files.TooLong := by
  have told : ∀ {dir : Location} {name : String} {entry : Entry},
      files.lookup (dir ++ [name]) = some entry →
      files.inspect (pathOf (dir ++ [name])) = .ok entry ∨
        files.inspect (pathOf (dir ++ [name])) = .error .nameTooLong ∧ files.TooLong := by
    intro dir name entry found
    rw [proper.inspect_pathOf found]
    split
    · exact Or.inl rfl
    · rename_i long
      exact Or.inr ⟨rfl, _, entry, found, Nat.lt_of_not_le long⟩
  fun_induction FileTree.walk files links dir parts with
  | case1 links dir =>
    cases walked
    rw [realWalk]
    exact Or.inl rfl
  | case2 links dir rest ih =>
    rw [realWalk]
    exact ih (Or.inl rfl) walked
  | case3 links dir rest ih =>
    rw [realWalk]
    exact ih at_ walked
  | case4 links dir rest ih =>
    rw [realWalk]
    refine ih ?_ walked
    obtain rfl | ⟨before, last, rfl⟩ := Reduced.names_cases dir
    · exact Or.inl rfl
    · rw [List.dropLast_concat]
      exact proper.above at_
  | case5 links dir name rest long => cases walked
  | case6 links dir name short absent => cases walked
  | case7 links dir name rest short absent more => cases walked
  | case8 links dir name rest short found ih =>
    rw [realWalk]
    obtain told | ⟨told, long⟩ := told found
    · rw [told]
      exact ih (Or.inr found) walked
    · rw [told]
      exact Or.inr ⟨rfl, long⟩
  | case9 dir name rest short target found => cases walked
  | case10 dir name rest short target found links ih =>
    rw [realWalk]
    obtain told | ⟨told, long⟩ := told found
    · rw [told]
      exact ih at_ walked
    · rw [told]
      exact Or.inr ⟨rfl, long⟩
  | case11 links dir name short entry noDirectory noLink found =>
    cases walked
    rw [realWalk]
    obtain told | ⟨told, long⟩ := told found
    · rw [told]
      left
      cases entry with
      | directory => exact absurd rfl noDirectory
      | link target => exact absurd rfl (noLink target)
      | file bytes => rfl
      | locked => rfl
      | device hasRoom => rfl
    · rw [told]
      exact Or.inr ⟨rfl, long⟩
  | case12 links dir name rest short entry _ _ found more => cases walked

/-- What can be found has the path of the place where it is as its real path, or none, because a path
on the way is too long. -/
theorem Proper.realPath_of_find (proper : files.Proper) {path : String} {location : Location}
    {entry : Entry} (found : files.find path = .ok (location, entry)) :
    files.realPath path = .ok (pathOf location) ∨
      files.realPath path = .error .nameTooLong ∧ files.TooLong := by
  obtain ⟨valid, walked⟩ := locate_eq_ok.1 (find_eq_ok.1 found)
  obtain ⟨noNul, nonempty, -⟩ := validate_eq_ok.1 valid
  unfold realPath
  rw [if_neg noNul, if_neg nonempty]
  obtain real | ⟨real, long⟩ := proper.realWalk_of_walk proper.current walked
  · exact Or.inl (by rw [real]; rfl)
  · exact Or.inr ⟨by rw [real]; rfl, long⟩

theorem Spelled.realPath_of_find (spelled : files.Spelled) {path : String} {location : Location}
    {entry : Entry} (found : files.find path = .ok (location, entry)) :
    files.realPath path = .ok (pathOf location) :=
  (spelled.toProper.realPath_of_find found).resolve_right fun h => spelled.not_tooLong h.2

-- ---------------------------------------------------------------------------
-- Paths that are too long
-- ---------------------------------------------------------------------------

theorem utf8ByteSize_pathOf (location : Location) :
    (pathOf location).utf8ByteSize = max 1 (segmentBytes location) := by
  have slash : "/".utf8ByteSize = 1 := rfl
  cases location with
  | nil => rfl
  | cons name names =>
    have size := utf8ByteSize_intercalate (List.cons_ne_nil name names)
    rw [pathOf, String.utf8ByteSize_append, slash]
    omega

theorem utf8ByteSize_pathOf_dropLast (location : Location) :
    (pathOf location.dropLast).utf8ByteSize ≤ (pathOf location).utf8ByteSize := by
  obtain rfl | ⟨before, last, rfl⟩ := Reduced.names_cases location
  · exact Nat.le_refl _
  · rw [List.dropLast_concat, utf8ByteSize_pathOf, utf8ByteSize_pathOf,
      Reduced.segmentBytes_concat]
    omega

theorem short_of_inspect {path : String} {entry : Entry} (told : files.inspect path = .ok entry) :
    path.utf8ByteSize ≤ maxPath := by
  cases valid : validate path with
  | error e =>
    unfold inspect at told
    rw [valid] at told
    cases told
  | ok => exact (validate_eq_ok.1 valid).2.2

/-- No location is put together whose path is too long for a system call. -/
theorem realWalk_short {dir location : Location} {parts : List Part}
    (start : (pathOf dir).utf8ByteSize ≤ maxPath)
    (real : files.realWalk links dir parts = .ok location) :
    (pathOf location).utf8ByteSize ≤ maxPath := by
  fun_induction realWalk files links dir parts with
  | case1 links dir =>
    cases real
    exact start
  | case2 links dir rest ih => exact ih (by decide) real
  | case3 links dir rest ih => exact ih start real
  | case4 links dir rest ih => exact ih (Nat.le_trans (utf8ByteSize_pathOf_dropLast dir) start) real
  | case5 links dir name rest e told => cases real
  | case6 links dir name rest told ih => exact ih (short_of_inspect told) real
  | case7 dir name rest target told => cases real
  | case8 dir name rest target told links ih => exact ih start real
  | case9 links dir name entry _ _ told =>
    cases real
    exact short_of_inspect told
  | case10 links dir name rest entry _ _ told more => cases real

/-- No real path is too long for a system call. -/
theorem realPath_short (current : (pathOf files.current).utf8ByteSize ≤ maxPath)
    {path real : String} (h : files.realPath path = .ok real) : real.utf8ByteSize ≤ maxPath := by
  obtain ⟨location, walked, rfl⟩ := realPath_eq_ok h
  exact realWalk_short current walked

/-- What is found by a short path, through a link, has no real path if that would be too long. -/
theorem Proper.realPath_long (proper : files.Proper)
    (current : (pathOf files.current).utf8ByteSize ≤ maxPath) {path : String} {location : Location}
    {entry : Entry} (found : files.find path = .ok (location, entry))
    (long : maxPath < (pathOf location).utf8ByteSize) :
    files.realPath path = .error .nameTooLong := by
  obtain real | ⟨refused, -⟩ := proper.realPath_of_find found
  · exact absurd (realPath_short current real) (Nat.not_le.2 long)
  · exact refused

-- ---------------------------------------------------------------------------
-- A deep current directory
-- ---------------------------------------------------------------------------

/-- So many directories in each other, with a script in the innermost one, which is the current
directory. -/
def deep (n : Nat) : FileTree :=
  ⟨(List.replicate n "d" ++ ["f.js"], .file []) ::
    (List.range n).map fun k => (List.replicate (k + 1) "d", .directory), List.replicate n "d"⟩

private theorem ne_script (n k : Nat) :
    List.replicate k "d" ≠ List.replicate n "d" ++ ["f.js"] := by
  intro same
  have mem : "f.js" ∈ List.replicate k "d" := by
    rw [same]
    exact List.mem_append_right _ List.mem_cons_self
  exact absurd (List.eq_of_mem_replicate mem) (by decide)

private theorem lookup_directories {k : Nat} {ks : List Nat} (mem : k ∈ ks) :
    (ks.map fun k => (List.replicate (k + 1) "d", Entry.directory)).lookup
      (List.replicate (k + 1) "d") = some .directory := by
  induction ks with
  | nil => cases mem
  | cons i ks ih =>
    rw [List.map_cons, List.lookup_cons]
    split
    · rfl
    · rename_i other
      refine ih ((List.mem_cons.1 mem).resolve_left ?_)
      rintro rfl
      exact absurd (beq_self_eq_true _) (Bool.eq_false_iff.1 other)

theorem deep_directory {n k : Nat} (le : k ≤ n) : (deep n).IsDirectory (List.replicate k "d") := by
  cases k with
  | zero => exact Or.inl rfl
  | succ k =>
    refine Or.inr ?_
    unfold FileTree.lookup deep
    rw [List.lookup_cons, beq_false_of_ne (ne_script n (k + 1))]
    exact lookup_directories (List.mem_range.2 le)

theorem deep_proper (n : Nat) : (deep n).Proper := by
  have plain : ∀ name ∈ ["d", "f.js"], IsPlain name ∧ '\x00' ∉ name.toList ∧
      name.utf8ByteSize ≤ maxName := by decide
  refine .ofEntries (deep_directory (Nat.le_refl n)) fun e mem => ?_
  obtain rfl | mem := List.mem_cons.1 mem
  · refine ⟨?_, fun name among => plain name ?_⟩
    · rw [List.dropLast_concat]
      exact deep_directory (Nat.le_refl n)
    · obtain among | among := List.mem_append.1 among
      · exact List.eq_of_mem_replicate among ▸ List.mem_cons_self
      · exact List.mem_cons_of_mem _ among
  · obtain ⟨k, below, rfl⟩ := List.mem_map.1 mem
    refine ⟨?_, fun name among => plain name ?_⟩
    · rw [List.dropLast_replicate]
      exact deep_directory (Nat.le_of_lt (List.mem_range.1 below))
    · exact List.eq_of_mem_replicate among ▸ List.mem_cons_self

/-- The script is found from its directory. -/
theorem find_deep (n : Nat) :
    (deep n).find "./f.js" = .ok (List.replicate n "d" ++ ["f.js"], .file []) := by
  have steps : steps "./f.js" = [.here, .name "f.js"] := by rfl
  have script : (deep n).lookup ((deep n).current ++ ["f.js"]) = some (.file []) := by
    unfold FileTree.lookup deep
    rw [List.lookup_cons, beq_self_eq_true]
  refine find_eq_ok.2 (locate_eq_ok.2 ⟨rfl, ?_⟩)
  rw [steps, walk_here]
  exact walk_file maxLinks (by decide) script

/-- The path of the current directory is short enough, and that of the script is too long. -/
theorem realPath_deep {n : Nat} (short : n ≤ 2047) (long : 2046 ≤ n) :
    (deep n).realPath "./f.js" = .error .nameTooLong := by
  have bytes : segmentBytes (List.replicate n "d") = 2 * n := by
    have size : "d".utf8ByteSize = 1 := rfl
    clear short long
    induction n with
    | zero => rfl
    | succ n ih =>
      rw [List.replicate_succ, segmentBytes, ih, size]
      omega
  have script : "f.js".utf8ByteSize = 4 := rfl
  refine (deep_proper n).realPath_long ?_ (find_deep n) ?_
  · show (pathOf (List.replicate n "d")).utf8ByteSize ≤ maxPath
    rw [utf8ByteSize_pathOf, bytes]
    unfold maxPath
    omega
  · rw [utf8ByteSize_pathOf, Reduced.segmentBytes_concat, bytes, script]
    unfold maxPath
    omega

end Esm.FileTree
