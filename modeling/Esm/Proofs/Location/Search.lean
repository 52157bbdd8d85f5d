-- SUMMARY: A bare name means the first candidate that is a regular file, and nothing else decides it.
import Esm.Proofs.FileTree.Writing
import Esm.Proofs.Location.Routes

/-!
# Searching

A search path lists directories, and under each of them a bare name stands for a number of candidates.
They are ordered by the place of the directory in the search path, and for one directory by the place
of the suffix. The name means the first of them that is a regular file, and itself if there is none.
So only the candidates up to that file count. Main statement: `resolve_firstHit`.
-/

namespace Esm

-- ---------------------------------------------------------------------------
-- Search paths
-- ---------------------------------------------------------------------------

namespace Text

/-- Text that is left when the white space at both ends of another is taken away. -/
structure Trimmed (text rest : List Char) : Prop where
  parts : ∃ before after, text = before ++ rest ++ after ∧
    (∀ c ∈ before, isWhitespace c = true) ∧ ∀ c ∈ after, isWhitespace c = true
  first : ∀ c ∈ rest.head?, isWhitespace c = false
  last : ∀ c ∈ rest.getLast?, isWhitespace c = false

theorem head?_dropWhile_isWhitespace (cs : List Char) :
    ∀ c ∈ (cs.dropWhile isWhitespace).head?, isWhitespace c = false := by
  intro c mem
  have stops := List.head?_dropWhile_not isWhitespace cs
  rw [Option.mem_def.1 mem] at stops
  simpa using stops

theorem trimmed_trim (cs : List Char) : Trimmed cs (trim cs) := by
  -- first the start is taken away, and then the end of what is left
  have start : cs.takeWhile isWhitespace ++ cs.dropWhile isWhitespace = cs :=
    List.takeWhile_append_dropWhile
  generalize hrest : cs.dropWhile isWhitespace = rest at start
  have stop : trim cs ++ (rest.reverse.takeWhile isWhitespace).reverse = rest := by
    rw [trim, hrest, ← List.reverse_append, List.takeWhile_append_dropWhile, List.reverse_reverse]
  have all : ∀ {cs : List Char}, ∀ c ∈ cs.takeWhile isWhitespace, isWhitespace c = true :=
    List.all_eq_true.1 List.all_takeWhile
  refine ⟨⟨cs.takeWhile isWhitespace, (rest.reverse.takeWhile isWhitespace).reverse, ?_, all,
    fun c mem => all c (List.mem_reverse.1 mem)⟩, fun c mem => ?_, ?_⟩
  · rw [List.append_assoc, stop, start]
  · refine head?_dropWhile_isWhitespace cs c ?_
    rw [hrest, ← stop, Option.mem_def, List.head?_append, Option.mem_def.1 mem]
    rfl
  · rw [trim, hrest, List.getLast?_reverse]
    exact head?_dropWhile_isWhitespace rest.reverse

end Text

namespace Library

open Text

/-- Directories that are given by the entries of a search path: each entry without the white space at
its ends, if anything is left of it. -/
inductive Given : List (List Char) → List String → Prop where
  | nil : Given [] []
  | blank {entry : List Char} {entries : List (List Char)} {roots : List String} :
    Trimmed entry [] → Given entries roots → Given (entry :: entries) roots
  | root {entry : List Char} {entries : List (List Char)} {root : String} {roots : List String} :
    Trimmed entry root.toList → root ≠ "" → Given entries roots →
    Given (entry :: entries) (root :: roots)

/-- The directories of a search path: its entries stand between colons. -/
def Lists (searchPath : String) (roots : List String) : Prop :=
  ∃ entries, joinSegments ':' entries = searchPath.toList ∧ (∀ entry ∈ entries, ':' ∉ entry) ∧
    Given entries roots

theorem lists_roots (searchPath : String) : Lists searchPath (roots searchPath) := by
  refine ⟨_, joinSegments_segments ':' _, fun entry mem => not_mem_segment mem, ?_⟩
  unfold roots
  induction segments ':' searchPath.toList with
  | nil => exact .nil
  | cons entry entries ih =>
    have trimmed := trimmed_trim entry
    rw [List.map_cons, List.filterMap_cons]
    cases rest : trim entry with
    | nil =>
      rw [rest] at trimmed
      exact .blank trimmed ih
    | cons c cs =>
      rw [rest] at trimmed
      refine .root ?_ ?_ ih
      · rwa [String.toList_ofList]
      · intro empty
        have none := congrArg String.toList empty
        rw [String.toList_ofList] at none
        cases none

/-- A directory of a search path is what is left of one of its entries. -/
theorem exists_entry {searchPath root : String} (mem : root ∈ roots searchPath) :
    root ≠ "" ∧ ∃ entry, ':' ∉ entry ∧ Trimmed entry root.toList := by
  obtain ⟨entries, -, apart, given⟩ := lists_roots searchPath
  generalize roots searchPath = roots at given mem
  induction given with
  | nil => cases mem
  | blank _ _ ih => exact ih (List.forall_mem_cons.1 apart).2 mem
  | root trimmed proper _ ih =>
    obtain ⟨first, others⟩ := List.forall_mem_cons.1 apart
    obtain rfl | mem := List.mem_cons.1 mem
    · exact ⟨proper, _, first, trimmed⟩
    · exact ih others mem

end Library

-- ---------------------------------------------------------------------------
-- Candidates
-- ---------------------------------------------------------------------------

namespace Location

open Esm.Path

/-- A name under a directory. If a slash ends the directory, it is the one between the two. -/
def under (root name : String) : String :=
  if root.toList.getLast? = some '/' then root ++ name else root ++ "/" ++ name

theorem join_eq_under {root name : String} (proper : root ≠ "") (relative : isAbsolute name = false) :
    Path.join root name = under root name := by
  unfold Path.join under
  rw [relative, Bool.false_or, if_neg (by simpa using proper)]

/-- The candidate for a name at a place: under which of the directories, and with which suffix. -/
def candidateAt (roots : List String) (name : String) (place : Nat × Nat) : Option String :=
  match roots[place.1]?, suffixes[place.2]? with
  | some root, some suffix => some (under root name ++ suffix)
  | _, _ => none

/-- Places are ordered by the directory first. -/
def Earlier (p q : Nat × Nat) : Prop := p.1 < q.1 ∨ p.1 = q.1 ∧ p.2 < q.2

/-- The candidate at a place is a regular file, and no candidate at an earlier place is one. -/
structure FirstHit (files : FileTree) (roots : List String) (name : String) (place : Nat × Nat)
    (path : String) : Prop where
  candidate : candidateAt roots name place = some path
  file : files.isFile path = true
  first : ∀ earlier other, Earlier earlier place →
    candidateAt roots name earlier = some other → files.isFile other = false

/-- No candidate at all is a regular file. -/
def NoHit (files : FileTree) (roots : List String) (name : String) : Prop :=
  ∀ place path, candidateAt roots name place = some path → files.isFile path = false

variable {files : FileTree} {roots : List String} {root name path : String} {place : Nat × Nat}

/-- The candidates under the first directory. -/
theorem candidateAt_cons_zero (j : Nat) : candidateAt (root :: roots) name (0, j) =
    (suffixes.map (under root name ++ ·))[j]? := by
  unfold candidateAt
  rw [List.getElem?_cons_zero, List.getElem?_map]
  cases suffixes[j]? <;> rfl

/-- The first candidate of a stem that is a file. -/
theorem probe_eq_some {stem : String} : probe files stem = some path ↔
    ∃ j : Nat, (suffixes.map (stem ++ ·))[j]? = some path ∧ files.isFile path = true ∧
      ∀ (k : Nat) other, k < j → (suffixes.map (stem ++ ·))[k]? = some other →
        files.isFile other = false := by
  unfold probe candidates
  rw [List.find?_eq_some_iff_getElem]
  constructor
  · rintro ⟨file, j, below, here, first⟩
    refine ⟨j, List.getElem?_eq_some_iff.2 ⟨below, here⟩, file, fun k other earlier there => ?_⟩
    obtain ⟨_, rfl⟩ := List.getElem?_eq_some_iff.1 there
    simpa using first k earlier
  · rintro ⟨j, here, file, first⟩
    obtain ⟨below, here⟩ := List.getElem?_eq_some_iff.1 here
    refine ⟨file, j, below, here, fun k earlier => ?_⟩
    have missed := first k _ earlier (List.getElem?_eq_getElem (Nat.lt_trans earlier below))
    rw [missed]
    rfl

theorem probe_eq_none {stem : String} : probe files stem = none ↔
    ∀ (j : Nat) path, (suffixes.map (stem ++ ·))[j]? = some path → files.isFile path = false := by
  unfold probe candidates
  rw [List.find?_eq_none]
  constructor
  · intro missed j path here
    simpa using missed path (List.mem_of_getElem? here)
  · intro missed path mem
    obtain ⟨j, here⟩ := List.mem_iff_getElem?.1 mem
    simp [missed j path here]

/-- The first directory is searched first. -/
theorem search_cons (proper : root ≠ "") (relative : isAbsolute name = false) :
    search files (root :: roots) name =
      (probe files (under root name)).or (search files roots name) := by
  unfold search
  rw [List.findSome?_cons, join_eq_under proper relative]
  cases probe files (under root name) <;> rfl

/-- A hit under the first directory is one of its stem, and behind it one under the others of a name
that the first directory has nothing for. -/
theorem search_of_firstHit (proper : ∀ root ∈ roots, root ≠ "") (relative : isAbsolute name = false)
    (hit : FirstHit files roots name place path) : search files roots name = some path := by
  obtain ⟨i, j⟩ := place
  induction roots generalizing i with
  | nil => cases hit.candidate
  | cons root roots ih =>
    obtain ⟨first, others⟩ := List.forall_mem_cons.1 proper
    rw [search_cons first relative]
    cases i with
    | zero =>
      have here : probe files (under root name) = some path := by
        refine probe_eq_some.2 ⟨j, ?_, hit.file, fun k other earlier there => ?_⟩
        · exact candidateAt_cons_zero j ▸ hit.candidate
        · exact hit.first (0, k) other (Or.inr ⟨rfl, earlier⟩)
            ((candidateAt_cons_zero k).trans there)
      rw [here, Option.some_or]
    | succ i =>
      have nothing : probe files (under root name) = none :=
        probe_eq_none.2 fun k other there =>
          hit.first (0, k) other (Or.inl (Nat.succ_pos i)) ((candidateAt_cons_zero k).trans there)
      rw [nothing, Option.none_or]
      refine ih others i ⟨hit.candidate, hit.file, fun earlier other before there => ?_⟩
      exact hit.first (earlier.1 + 1, earlier.2) other
        (before.imp Nat.succ_lt_succ fun same => ⟨congrArg (· + 1) same.1, same.2⟩) there

/-- What is found is the first hit. -/
theorem exists_firstHit (proper : ∀ root ∈ roots, root ≠ "") (relative : isAbsolute name = false)
    (found : search files roots name = some path) :
    ∃ place, FirstHit files roots name place path := by
  induction roots with
  | nil => cases found
  | cons root roots ih =>
    obtain ⟨first, others⟩ := List.forall_mem_cons.1 proper
    rw [search_cons first relative] at found
    cases here : probe files (under root name) with
    | some path' =>
      rw [here, Option.some_or] at found
      obtain rfl : path' = path := Option.some.inj found
      obtain ⟨j, candidate, file, before⟩ := probe_eq_some.1 here
      refine ⟨(0, j), (candidateAt_cons_zero j).trans candidate, file, ?_⟩
      rintro ⟨i, k⟩ other (below | ⟨same, earlier⟩) there
      · exact absurd below (Nat.not_lt_zero i)
      · obtain rfl : i = 0 := same
        exact before k other earlier ((candidateAt_cons_zero k).symm.trans there)
    | none =>
      rw [here, Option.none_or] at found
      obtain ⟨⟨i, j⟩, hit⟩ := ih others found
      refine ⟨(i + 1, j), hit.candidate, hit.file, ?_⟩
      rintro ⟨_ | i', k⟩ other earlier there
      · exact probe_eq_none.1 here k other ((candidateAt_cons_zero k).symm.trans there)
      · exact hit.first (i', k) other
          (earlier.imp Nat.lt_of_succ_lt_succ fun same => ⟨Nat.succ.inj same.1, same.2⟩) there

/-- If nothing is found then there is nothing to be found. -/
theorem noHit_of_search (proper : ∀ root ∈ roots, root ≠ "") (relative : isAbsolute name = false)
    (missed : search files roots name = none) : NoHit files roots name := by
  rintro ⟨i, j⟩ path there
  induction roots generalizing i with
  | nil => cases there
  | cons root roots ih =>
    obtain ⟨first, others⟩ := List.forall_mem_cons.1 proper
    rw [search_cons first relative, Option.or_eq_none_iff] at missed
    cases i with
    | zero => exact probe_eq_none.1 missed.1 j path ((candidateAt_cons_zero j).symm.trans there)
    | succ i => exact ih others missed.2 i there

/-- A hit stays the first one where the candidates up to it are the same, and the same of them are
regular files. -/
theorem FirstHit.agree {files' : FileTree} {roots' : List String}
    (hit : FirstHit files roots name place path)
    (same : ∀ before, before = place ∨ Earlier before place →
      candidateAt roots' name before = candidateAt roots name before ∧
      ∀ other, candidateAt roots name before = some other →
        files'.isFile other = files.isFile other) :
    FirstHit files' roots' name place path := by
  obtain ⟨candidate, file⟩ := same place (Or.inl rfl)
  refine ⟨candidate.trans hit.candidate, (file path hit.candidate).trans hit.file,
    fun earlier other before there => ?_⟩
  obtain ⟨candidate', file'⟩ := same earlier (Or.inr before)
  have there' := candidate'.symm.trans there
  exact (file' other there').trans (hit.first earlier other before there')

-- ---------------------------------------------------------------------------
-- Resolution of bare names
-- ---------------------------------------------------------------------------

theorem isAbsolute_of_bare (bare : Specifier.kind name = .bare) : isAbsolute name = false := by
  refine eq_false_of_ne_true (mt Specifier.kind_eq_absolute.2 ?_)
  rw [bare]
  exact nofun

theorem resolve_bare (bare : Specifier.kind name = .bare) (referrer : String) :
    resolve files roots name referrer =
      match search files roots name with
      | some path => .resolved path
      | none => .unchanged name := by
  unfold resolve stems unprobed search
  rw [bare, List.findSome?_map]
  rfl

/-- A bare name under the directories that the entries of a search path give, the white space at the
ends of each taken away and entries without anything else left out. If one of its candidates is a
regular file then the name means the first such, by the place of the directory and then by that of
the suffix, and otherwise it means itself. With another search path and in another file tree it means
the same if the candidates up to that one are the same and the same of them are regular files. -/
theorem resolve_firstHit {searchPath name : String} (bare : Specifier.kind name = .bare) :
    Library.Lists searchPath (Library.roots searchPath) ∧
    ∀ files referrer,
      ((∃ place path, FirstHit files (Library.roots searchPath) name place path) ∨
        NoHit files (Library.roots searchPath) name) ∧
      (NoHit files (Library.roots searchPath) name →
        resolve files (Library.roots searchPath) name referrer = .unchanged name) ∧
      ∀ place path, FirstHit files (Library.roots searchPath) name place path →
        resolve files (Library.roots searchPath) name referrer = .resolved path ∧
        ∀ files' searchPath' referrer',
          (∀ before, before = place ∨ Earlier before place →
            candidateAt (Library.roots searchPath') name before =
              candidateAt (Library.roots searchPath) name before ∧
            ∀ other, candidateAt (Library.roots searchPath) name before = some other →
              files'.isFile other = files.isFile other) →
          resolve files' (Library.roots searchPath') name referrer' =
            resolve files (Library.roots searchPath) name referrer := by
  have relative := isAbsolute_of_bare bare
  have proper : ∀ searchPath, ∀ root ∈ Library.roots searchPath, root ≠ "" :=
    fun searchPath root mem => (Library.exists_entry mem).1
  have hits : ∀ {files searchPath place path} referrer,
      FirstHit files (Library.roots searchPath) name place path →
      resolve files (Library.roots searchPath) name referrer = .resolved path := by
    intro files searchPath place path referrer hit
    rw [resolve_bare bare, search_of_firstHit (proper searchPath) relative hit]
  refine ⟨Library.lists_roots searchPath, fun files referrer => ⟨?_, fun nothing => ?_,
    fun place path hit => ⟨hits referrer hit, fun files' searchPath' referrer' same => ?_⟩⟩⟩
  · cases found : search files (Library.roots searchPath) name with
    | some path =>
      obtain ⟨place, hit⟩ := exists_firstHit (proper searchPath) relative found
      exact Or.inl ⟨place, path, hit⟩
    | none => exact Or.inr (noHit_of_search (proper searchPath) relative found)
  · rw [resolve_bare bare]
    cases found : search files (Library.roots searchPath) name with
    | some path =>
      obtain ⟨place, hit⟩ := exists_firstHit (proper searchPath) relative found
      have missed := nothing place path hit.candidate
      rw [hit.file] at missed
      cases missed
    | none => rfl
  · rw [hits referrer' (hit.agree same), hits referrer hit]

section

variable {files : FileTree}

/-- A path of two names is followed from the directory that the first one names. -/
private theorem locate_in_a {path name : String} (valid : FileTree.validate path = .ok ())
    (steps : FileTree.steps path = [.name "a", .name name]) (current : files.current = [])
    (directory : files.lookup ["a"] = some .directory) :
    files.locate path = files.walk FileTree.maxLinks ["a"] [.name name] := by
  unfold FileTree.locate
  rw [valid, steps, current]
  exact FileTree.walk_directory FileTree.maxLinks (by decide) directory

private theorem isFile_script (current : files.current = [])
    (directory : files.lookup ["a"] = some .directory)
    (script : files.lookup ["a", "lib.js"] = some (.file [])) : files.isFile "a/lib.js" = true := by
  have steps : FileTree.steps "a/lib.js" = [.name "a", .name "lib.js"] := by rfl
  have located : files.locate "a/lib.js" = .ok (.found ["a", "lib.js"] (.file [])) :=
    (locate_in_a rfl steps current directory).trans
      (FileTree.walk_file FileTree.maxLinks (by decide) script)
  unfold FileTree.isFile FileTree.find
  rw [located]
  rfl

private theorem isFile_stem (current : files.current = [])
    (directory : files.lookup ["a"] = some .directory) (stem : files.lookup ["a", "lib"] = none) :
    files.isFile "a/lib" = false := by
  have steps : FileTree.steps "a/lib" = [.name "a", .name "lib"] := by rfl
  have located : files.locate "a/lib" = .ok (.absent ["a", "lib"]) :=
    (locate_in_a rfl steps current directory).trans
      (FileTree.walk_missing FileTree.maxLinks (by decide) stem)
  unfold FileTree.isFile FileTree.find
  rw [located]
  rfl

end

/-- A name that needs a suffix, and what stands for it in a directory that comes later. -/
theorem resolve_firstHit_suffix :
    let files : FileTree :=
      ⟨[(["a"], .directory), (["a", "lib.js"], .file []), (["b"], .directory),
        (["b", "lib"], .file [])], []⟩
    let fewer : FileTree := ⟨[(["a"], .directory), (["a", "lib.js"], .file [])], []⟩
    Specifier.kind "lib" = .bare ∧
      resolve files (Library.roots " a ::b") "lib" "main.js" = .resolved "a/lib.js" ∧
      resolve fewer (Library.roots "a") "lib" "main.js" = .resolved "a/lib.js" := by
  intro files fewer
  have bare : Specifier.kind "lib" = .bare := by decide +kernel
  have directories : Library.roots " a ::b" = ["a", "b"] := by decide +kernel
  have directory : Library.roots "a" = ["a"] := by decide +kernel
  have stem : candidateAt ["a", "b"] "lib" (0, 0) = some "a/lib" := by decide +kernel
  have script : candidateAt ["a", "b"] "lib" (0, 1) = some "a/lib.js" := by decide +kernel
  have before : ∀ p, Earlier p (0, 1) → p = (0, 0) := by
    rintro ⟨i, j⟩ (below | ⟨same, below⟩)
    · exact absurd below (Nat.not_lt_zero i)
    · exact Prod.ext same (Nat.lt_one_iff.1 below)
  have hit : FirstHit files (Library.roots " a ::b") "lib" (0, 1) "a/lib.js" := by
    rw [directories]
    refine ⟨script, isFile_script rfl rfl rfl, fun p other earlier there => ?_⟩
    rw [before p earlier, stem] at there
    obtain rfl := Option.some.inj there
    exact isFile_stem rfl rfl rfl
  obtain ⟨found, stable⟩ :=
    ((resolve_firstHit bare).2 files "main.js").2.2 (0, 1) "a/lib.js" hit
  refine ⟨bare, found, (stable fewer "a" "main.js" fun p place => ?_).trans found⟩
  rw [directories, directory]
  obtain rfl | earlier := place
  · refine ⟨rfl, fun other there => ?_⟩
    obtain rfl := Option.some.inj (script.symm.trans there)
    exact (isFile_script rfl rfl rfl).trans (isFile_script rfl rfl rfl).symm
  · rw [before p earlier]
    refine ⟨rfl, fun other there => ?_⟩
    obtain rfl := Option.some.inj (stem.symm.trans there)
    exact (isFile_stem rfl rfl rfl).trans (isFile_stem rfl rfl rfl).symm

end Location

end Esm
