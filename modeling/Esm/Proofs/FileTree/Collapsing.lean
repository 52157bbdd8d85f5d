-- SUMMARY: Where there are no symbolic links, a reduced path leads where the path it comes from leads.
import Esm.Proofs.FileTree.Writing
import Esm.Proofs.Location.Routes
import Esm.Proofs.Path.Bytes

/-!
# Collapsing

A walk goes through directories one by one, and a name that is taken back by `..` must be there, so a
path may fail where its reduction does not. Where a walk does lead somewhere, and no symbolic link is
met, it leads where the stack of its parts leads, and so the reduced path leads there as well. Main
statement: `find_unprobed`.
-/

namespace Esm

open Esm.Path

namespace FileTree

variable {files : FileTree} {links : Nat} {dir location : Location} {entry : Entry}

-- ---------------------------------------------------------------------------
-- Walks in two pieces
-- ---------------------------------------------------------------------------

/-- A walk that has reached a directory goes on from there. -/
theorem walk_append (linkless : files.Linkless) {ps : List Part} {middle : Location}
    (first : files.walk links dir ps = .ok (.found middle .directory)) (qs : List Part) :
    files.walk links dir (ps ++ qs) = files.walk links middle qs := by
  fun_induction FileTree.walk files links dir ps with
  | case1 links dir =>
    cases first
    rfl
  | case2 links dir rest ih =>
    rw [List.cons_append, walk]
    exact ih first
  | case3 links dir rest ih =>
    rw [List.cons_append, walk]
    exact ih first
  | case4 links dir rest ih =>
    rw [List.cons_append, walk]
    exact ih first
  | case5 links dir name rest long => cases first
  | case6 links dir name short absent => cases first
  | case7 links dir name rest short absent more => cases first
  | case8 links dir name rest short found ih =>
    rw [List.cons_append, walk, if_neg short, found]
    exact ih first
  | case9 dir name rest short target found => cases first
  | case10 dir name rest short target found links ih => exact absurd found linkless.lookup
  | case11 links dir name short entry noDirectory _ found =>
    cases first
    exact absurd rfl noDirectory
  | case12 links dir name rest short entry _ _ found more => cases first

/-- A walk does not go on behind a name that nothing stands at. -/
theorem walk_absent {name : String} {rest : List Part} (more : rest ≠ [])
    (absent : files.lookup (dir ++ [name]) = none) {place : Place} :
    files.walk links dir (.name name :: rest) ≠ .ok place := by
  intro walked
  rw [walk, absent] at walked
  simp only [if_neg more] at walked
  split at walked <;> cases walked

/-- A walk does not go on behind something that is neither a directory nor a link. -/
theorem walk_stopped {name : String} {rest : List Part} (more : rest ≠ [])
    (noDirectory : entry ≠ .directory) (noLink : ∀ target, entry ≠ .link target)
    (found : files.lookup (dir ++ [name]) = some entry) {place : Place} :
    files.walk links dir (.name name :: rest) ≠ .ok place := by
  intro walked
  rw [walk, found] at walked
  cases entry with
  | directory => exact noDirectory rfl
  | link target => exact noLink target rfl
  | _ =>
    simp only [if_neg more] at walked
    split at walked <;> cases walked

/-- A walk that goes on has reached a directory before. -/
theorem walk_append_inv (linkless : files.Linkless) {ps qs : List Part} {place : Place}
    (more : qs ≠ []) (walked : files.walk links dir (ps ++ qs) = .ok place) :
    ∃ middle, files.walk links dir ps = .ok (.found middle .directory) ∧
      files.walk links middle qs = .ok place := by
  have behind : ∀ rest : List Part, rest ++ qs ≠ [] :=
    fun rest none => more (List.append_eq_nil_iff.1 none).2
  fun_induction FileTree.walk files links dir ps with
  | case1 links dir => exact ⟨dir, rfl, walked⟩
  | case2 links dir rest ih =>
    rw [List.cons_append, walk] at walked
    exact ih walked
  | case3 links dir rest ih =>
    rw [List.cons_append, walk] at walked
    exact ih walked
  | case4 links dir rest ih =>
    rw [List.cons_append, walk] at walked
    exact ih walked
  | case5 links dir name rest long =>
    rw [List.cons_append, walk, if_pos long] at walked
    cases walked
  | case6 links dir name short absent => exact absurd walked (walk_absent (behind _) absent)
  | case7 links dir name rest short absent _ => exact absurd walked (walk_absent (behind _) absent)
  | case8 links dir name rest short found ih =>
    rw [List.cons_append, walk, if_neg short, found] at walked
    exact ih walked
  | case9 dir name rest short target found => exact absurd found linkless.lookup
  | case10 dir name rest short target found links ih => exact absurd found linkless.lookup
  | case11 links dir name short entry noDirectory noLink found =>
    exact absurd walked (walk_stopped (behind _) noDirectory noLink found)
  | case12 links dir name rest short entry noDirectory noLink found _ =>
    exact absurd walked (walk_stopped (behind _) noDirectory noLink found)

-- ---------------------------------------------------------------------------
-- The walk of the stack
-- ---------------------------------------------------------------------------

/-- One step from where a stack leads is what the stack leads to with that step on it. -/
theorem walk_onto (linkless : files.Linkless) {start : Location} {stack : List Part} {p : Part}
    (at_ : files.walk links start stack = .ok (.found dir .directory))
    (walked : files.walk links dir [p] = .ok (.found location entry)) :
    files.walk links start (p.onto stack) = .ok (.found location entry) := by
  -- to put a step on the stack is to take it
  have further : files.walk links start (stack ++ [p]) = .ok (.found location entry) := by
    rw [walk_append linkless at_, walked]
  have more : ∀ {q : Part}, [q] ≠ [] := List.cons_ne_nil _ _
  cases p with
  | root =>
    rw [walk] at walked
    rwa [Part.onto, walk]
  | here =>
    rw [walk, walk] at walked
    cases walked
    exact at_
  | name text => exact further
  | up =>
    rw [walk, walk] at walked
    cases walked
    rw [Part.onto]
    split
    · -- the name on top has led from the directory above
      rename_i name top
      obtain ⟨before, rfl⟩ := List.getLast?_eq_some_iff.1 top
      obtain ⟨middle, before', last⟩ := walk_append_inv linkless more at_
      have ends := walk_linkless linkless last
      rw [List.dropLast_concat, before', show dir = middle ++ [name] from ends,
        List.dropLast_concat]
    · -- the root has no directory above it
      rename_i top
      obtain ⟨before, rfl⟩ := List.getLast?_eq_some_iff.1 top
      obtain ⟨middle, -, last⟩ := walk_append_inv linkless more at_
      have ends := walk_linkless linkless last
      rw [at_, show dir = [] from ends]
      rfl
    · exact further

/-- A walk leads where the stack of its steps leads. -/
theorem walk_foldl_onto (linkless : files.Linkless) {start : Location} {stack ps : List Part}
    (at_ : files.walk links start stack = .ok (.found dir .directory))
    (walked : files.walk links dir ps = .ok (.found location entry)) :
    files.walk links start (ps.foldl Part.onto stack) = .ok (.found location entry) := by
  induction ps generalizing dir stack with
  | nil =>
    rw [walk] at walked
    cases walked
    exact at_
  | cons p ps ih =>
    cases ps with
    | nil => exact walk_onto linkless at_ walked
    | cons q ps =>
      obtain ⟨middle, first, rest⟩ := walk_append_inv linkless (List.cons_ne_nil q ps)
        (show files.walk links dir ([p] ++ q :: ps) = _ from walked)
      exact ih (walk_onto linkless at_ first) rest

theorem walk_collapse (linkless : files.Linkless) {ps : List Part}
    (walked : files.walk links dir ps = .ok (.found location entry)) :
    files.walk links dir (collapse ps) = .ok (.found location entry) :=
  walk_foldl_onto linkless (by rw [walk]) walked

-- ---------------------------------------------------------------------------
-- The walk of a reduced path
-- ---------------------------------------------------------------------------

/-- The steps of a path are those of its segments. -/
theorem steps_eq (path : String) : steps path =
    (if isAbsolute path then [.root] else []) ++ (Text.split '/' path).map Part.ofStep := by
  have same : (fun segment : String => if segment = "" || segment = "." then Part.here
      else if segment = ".." then .up else .name segment) = Part.ofStep := by
    funext segment
    unfold Part.ofStep Part.ofSegment
    split
    · rfl
    · split <;> rfl
  unfold steps
  rw [← same]
  split <;> rfl

/-- The stack of the steps of a path is that of its parts. -/
theorem collapse_steps (path : String) : collapse (steps path) = collapse (Path.parts path) := by
  rw [← Reduced.parts_ofParts, ← Reduced.parts_ofParts, Reduced.ofParts_parts_split, steps_eq,
    Reduced.ofParts_append]
  congr 2
  split <;> rfl

theorem steps_slash (text : String) :
    steps ("/" ++ text) = .root :: .here :: (Text.split '/' text).map Part.ofStep := by
  have absolute : isAbsolute ("/" ++ text) = true := isAbsolute_append (by decide) _
  have segments : Text.split '/' ("/" ++ text) = "" :: Text.split '/' text := split_append "" text
  rw [steps_eq, if_pos absolute, segments]
  rfl

theorem map_ofStep_segments {ps : List Part} (some : ps ≠ []) (proper : ∀ p ∈ ps, p.IsStep) :
    (Text.split '/' ("/".intercalate (ps.map Part.segment))).map Part.ofStep = ps := by
  have step : ∀ p ∈ ps, (Part.ofStep ∘ Part.segment) p = p := by
    intro p mem
    exact congrArg (·.getD .here) (proper p mem).ofSegment
  rw [split_segments some proper, List.map_map, List.map_congr_left step, List.map_id']

theorem walk_segments {ps : List Part} (proper : ∀ p ∈ ps, p.IsStep) :
    files.walk links dir ((Text.split '/' ("/".intercalate (ps.map Part.segment))).map Part.ofStep) =
      files.walk links dir ps := by
  by_cases none : ps = []
  · subst none
    exact walk_here files links dir []
  · rw [map_ofStep_segments none proper]

/-- The text of parts is walked part by part. -/
theorem walk_spell {ps : List Part} (proper : IsParts ps) :
    files.walk links dir (steps (spell ps)) = files.walk links dir ps := by
  cases proper with
  | root proper =>
    rw [spell, steps_slash, walk, walk_here, walk_segments proper, walk]
  | @here ps proper =>
    have relative : isAbsolute ("./" ++ "/".intercalate (ps.map Part.segment)) = false :=
      isAbsolute_append (by decide) _
    have segments : Text.split '/' ("./" ++ "/".intercalate (ps.map Part.segment)) =
        "." :: Text.split '/' ("/".intercalate (ps.map Part.segment)) :=
      split_append "." _
    rw [spell, steps_eq, relative, segments, List.map_cons]
    exact (walk_here files links dir _).trans ((walk_segments proper).trans (by rw [walk]))
  | steps proper =>
    have relative : isAbsolute ("/".intercalate (ps.map Part.segment)) = false := by
      apply eq_false_of_ne_true
      intro absolute
      have root := lead_segments proper
      rw [lead, if_pos absolute] at root
      cases root
    rw [spell_steps proper, steps_eq, relative]
    exact walk_segments proper

/-- The text of a reduced path leads where its parts lead. -/
theorem walk_text {r : Reduced} (plain : r.Plain) :
    files.walk links dir (steps r.text) = files.walk links dir r.parts := by
  rw [Reduced.text_eq, walk_spell plain.isParts]
  cases r with
  | absolute names => rfl
  | relative ups names =>
    cases ups with
    | zero => exact walk_here files links dir _
    | succ ups => rfl

theorem validate_eq_ok {path : String} : validate path = .ok () ↔
    '\x00' ∉ path.toList ∧ path ≠ "" ∧ path.utf8ByteSize ≤ maxPath := by
  unfold validate
  split
  · rename_i nul
    exact iff_of_false nofun fun h => h.1 nul
  rename_i noNul
  split
  · rename_i empty
    exact iff_of_false nofun fun h => h.2.1 empty
  rename_i proper
  split
  · rename_i long
    exact iff_of_false nofun fun h => absurd h.2.2 (Nat.not_le_of_gt long)
  · rename_i short
    exact iff_of_true rfl ⟨noNul, proper, Nat.le_of_not_gt short⟩

-- ---------------------------------------------------------------------------
-- Imports
-- ---------------------------------------------------------------------------

/-- What can be walked can be walked when it has been reduced: the text is no longer, and has no
other characters. -/
theorem validate_joinDirectory {directory specifier : String} (proper : directory ≠ "")
    (relative : Specifier.IsRelative specifier)
    (valid : validate (Path.join directory specifier) = .ok ()) :
    validate (Location.joinDirectory directory specifier) = .ok () := by
  obtain ⟨noNul, -, short⟩ := validate_eq_ok.1 valid
  have plain : (Reduced.ofParts (Path.parts (Path.join directory specifier))).Plain :=
    Reduced.plain_ofParts fun _ => plain_of_mem_parts
  refine validate_eq_ok.2 ⟨fun nul => ?_, fun empty => ?_, ?_⟩
  · obtain slash | dot | ⟨name, among, mem⟩ := Reduced.mem_text nul
    · exact absurd slash (by decide)
    · exact absurd dot (by decide)
    · exact noNul (mem_of_mem_name (Reduced.mem_names_ofParts among) mem)
  · have some := Reduced.lead_append_parts_ne_nil
      (Reduced.ofParts (Path.parts (Path.join directory specifier)))
    rw [← Reduced.parts_text plain] at some
    exact some (congrArg Path.parts empty)
  · refine Nat.le_trans ?_ short
    obtain ⟨before, whole, -⟩ := join_eq_append proper relative.isAbsolute
    obtain ⟨dots, start, more, rfl⟩ : ∃ dots, (dots = "." ∨ dots = "..") ∧
        ∃ more, specifier = dots ++ "/" ++ more := by
      obtain ⟨more, start | start⟩ := relative.cases
      · exact ⟨".", Or.inl rfl, more, start⟩
      · exact ⟨"..", Or.inr rfl, more, start⟩
    rw [Location.joinDirectory, whole]
    exact Reduced.utf8ByteSize_text_ofParts_le start

/-- In a tree without symbolic links, if the path that a relative specifier makes behind the
directory of the importing module leads to something, then the name that the specifier is resolved to
where nothing is probed leads to the same, from whatever current directory. And if that is a regular
file, it is what the specifier is resolved to. -/
theorem find_unprobed (linkless : files.Linkless) {referrer specifier directory : String}
    (file : Specifier.isUrl referrer = false) (relative : Specifier.IsRelative specifier)
    (same : Path.parts directory = Location.referrerDirectory referrer)
    (found : files.find (Path.join directory specifier) = .ok (location, entry)) :
    files.find (Location.unprobed specifier referrer).location = .ok (location, entry) ∧
      ∀ roots, entry.isRegular = true →
        Location.resolve files roots specifier referrer = Location.unprobed specifier referrer := by
  have proper : directory ≠ "" := by
    rintro rfl
    exact Location.referrerDirectory_ne_nil referrer same.symm
  obtain ⟨valid, walked⟩ := locate_eq_ok.1 (find_eq_ok.1 found)
  have plain : (Reduced.ofParts (Path.parts (Path.join directory specifier))).Plain :=
    Reduced.plain_ofParts fun _ => plain_of_mem_parts
  have reached : files.find (Location.joinDirectory directory specifier) =
      .ok (location, entry) := by
    refine find_eq_ok.2 (locate_eq_ok.2 ⟨validate_joinDirectory proper relative valid, ?_⟩)
    rw [Location.joinDirectory, walk_text plain, Reduced.parts_ofParts, ← collapse_steps]
    exact walk_collapse linkless walked
  have key : Location.unprobed specifier referrer =
      .resolved (Location.joinDirectory directory specifier) := by
    rw [Location.unprobed_relative file relative, Location.joinRelative_text same relative]
  rw [key]
  refine ⟨reached, fun roots regular => ?_⟩
  have probed : Location.probe files (Location.joinDirectory directory specifier) =
      some (Location.joinDirectory directory specifier) := by
    have isFile : files.isFile (Location.joinDirectory directory specifier) = true := by
      rw [FileTree.isFile, reached]
      exact regular
    simp [Location.probe, Location.candidates, Location.suffixes, isFile]
  unfold Location.resolve
  rw [Location.stems_relative file relative, Location.joinRelative_text same relative,
    List.findSome?_cons, probed]

/-- A script that is imported by a way that leaves the directory of the importing module, and the
current one, and goes on at the root. -/
theorem find_unprobed_root :
    let files : FileTree := ⟨[(["a"], .directory), (["a", "b"], .directory), (["c"], .file [])], ["a"]⟩
    files.Linkless ∧ Specifier.isUrl "b/main.js" = false ∧ Specifier.IsRelative "./../../../c" ∧
      Path.parts "b" = Location.referrerDirectory "b/main.js" ∧
      files.find (Path.join "b" "./../../../c") = .ok (["c"], .file []) ∧
      files.find (Location.unprobed "./../../../c" "b/main.js").location =
        .ok (["c"], .file []) := by
  intro files
  have linkless : files.Linkless := by decide
  have file : Specifier.isUrl "b/main.js" = false := by decide +kernel
  have relative : Specifier.IsRelative "./../../../c" := by decide +kernel
  have same : Path.parts "b" = Location.referrerDirectory "b/main.js" := by decide +kernel
  have steps : steps (Path.join "b" "./../../../c") =
      [.name "b", .here, .up, .up, .up, .name "c"] := by decide +kernel
  have walked : files.walk maxLinks files.current (FileTree.steps (Path.join "b" "./../../../c")) =
      .ok (.found ["c"] (.file [])) := by
    have inside : files.lookup (files.current ++ ["b"]) = some .directory := by rfl
    rw [steps, walk_directory maxLinks (by decide) inside, walk_here, walk_up, walk_up, walk_up]
    exact walk_file maxLinks (by decide) rfl
  have found : files.find (Path.join "b" "./../../../c") = .ok (["c"], .file []) :=
    find_eq_ok.2 (locate_eq_ok.2 ⟨validate_eq_ok.2 (by decide +kernel), walked⟩)
  exact ⟨linkless, file, relative, same, found, (find_unprobed linkless file relative same found).1⟩

end FileTree

end Esm
