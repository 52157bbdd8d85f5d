-- SUMMARY: The real path of a file is put together again from its directory and its name.
import Esm.Proofs.FileTree.Writing
import Esm.Proofs.Path.Parts
import Esm.Stamp

/-!
# Names on real paths

The parts of a path are names: none of them is empty or has a slash in it. So a real path is put
together from names only, if the current directory is reached through names, and has no slash behind
another. It is split at its last slash, and the two parts give it back. In a tree without links it is the
path that was spelled.
-/

namespace Esm

/-- The path from its directory and its name. -/
def joinPath (directory name : String) : String :=
  (if directory = "/" then "" else directory) ++ "/" ++ name

-- ---------------------------------------------------------------------------
-- Names
-- ---------------------------------------------------------------------------

namespace FileTree

open Esm.Path

/-- A text that can stand between two slashes of a path. -/
def IsName (name : String) : Prop := name ≠ "" ∧ '/' ∉ name.toList

/-- The current directory is reached through names, as that of any process is. -/
def Named (files : FileTree) : Prop := ∀ name ∈ files.current, IsName name

instance (files : FileTree) : Decidable files.Named :=
  inferInstanceAs (Decidable (∀ name ∈ files.current, name ≠ "" ∧ '/' ∉ name.toList))

theorem isName_of_mem_steps {path name : String} (mem : Part.name name ∈ steps path) :
    IsName name := by
  have mem : Part.name name ∈ (Text.split '/' path).map fun segment =>
      if segment = "" || segment = "." then Part.here else if segment = ".." then .up
        else .name segment := by
    unfold steps at mem
    dsimp only at mem
    split at mem
    · obtain root | mem := List.mem_cons.1 mem
      · cases root
      · exact mem
    · exact mem
  obtain ⟨segment, among, step⟩ := List.mem_map.1 mem
  obtain ⟨cs, part, rfl⟩ := List.mem_map.1 among
  split at step
  · cases step
  · rename_i proper
    split at step
    · cases step
    · cases step
      simp only [Bool.or_eq_true, decide_eq_true_eq, not_or] at proper
      exact ⟨proper.1, by rw [String.toList_ofList]; exact Text.not_mem_segment part⟩

/-- A location that is put together along names has names only. -/
theorem realWalk_named {files : FileTree} {links : Nat} {dir : Location} {parts : List Part}
    {location : Location} (real : files.realWalk links dir parts = .ok location)
    (start : ∀ name ∈ dir, IsName name) (named : ∀ name, Part.name name ∈ parts → IsName name) :
    ∀ name ∈ location, IsName name := by
  have further : ∀ {dir : Location} {name : String}, (∀ name ∈ dir, IsName name) → IsName name →
      ∀ other ∈ dir ++ [name], IsName other := by
    intro dir name start proper
    exact List.forall_mem_append.2 ⟨start, List.forall_mem_singleton.2 proper⟩
  fun_induction realWalk files links dir parts with
  | case1 links dir =>
    cases real
    exact start
  | case2 links dir rest ih =>
    exact ih real (fun _ mem => absurd mem List.not_mem_nil)
      fun name mem => named name (List.mem_cons_of_mem _ mem)
  | case3 links dir rest ih =>
    exact ih real start fun name mem => named name (List.mem_cons_of_mem _ mem)
  | case4 links dir rest ih =>
    exact ih real (fun name mem => start name (List.dropLast_subset dir mem))
      fun name mem => named name (List.mem_cons_of_mem _ mem)
  | case5 links dir name rest e told => cases real
  | case6 links dir name rest told ih =>
    exact ih real (further start (named name List.mem_cons_self))
      fun name mem => named name (List.mem_cons_of_mem _ mem)
  | case7 dir name rest target told => cases real
  | case8 dir name rest target told links ih =>
    refine ih real start fun name mem => ?_
    obtain mem | mem := List.mem_append.1 mem
    · exact isName_of_mem_steps mem
    · exact named name (List.mem_cons_of_mem _ mem)
  | case9 links dir name entry _ _ told =>
    cases real
    exact further start (named name List.mem_cons_self)
  | case10 links dir name rest entry _ _ told more => cases real

/-- The path of a location reached through names has no second slash behind the first. -/
theorem pathOf_eq_cons {location : Location} (named : ∀ name ∈ location, IsName name) :
    ∃ cs, (pathOf location).toList = '/' :: cs ∧ cs.head? ≠ some '/' := by
  refine ⟨['/'].intercalate (location.map String.toList), ?_, ?_⟩
  · unfold pathOf
    rw [String.toList_append, String.toList_intercalate]
    rfl
  · cases location with
    | nil => exact nofun
    | cons name rest =>
      obtain ⟨proper, noSlash⟩ := named name List.mem_cons_self
      cases spelled : name.toList with
      | nil => exact absurd (String.toList_eq_nil_iff.1 spelled) proper
      | cons c cs =>
        rw [spelled] at noSlash
        have first : (['/'].intercalate ((name :: rest).map String.toList)).head? = some c := by
          cases rest with
          | nil => simp [List.intercalate, spelled]
          | cons other rest => simp [List.intercalate_cons_cons, spelled]
        rw [first]
        intro same
        exact noSlash (Option.some.inj same ▸ List.mem_cons_self)

/-- A path through names is split into a directory and a name that give it back: a slash stands
between them, which the root directory has already. -/
theorem joinPath_splitPath {location : Location} (named : ∀ name ∈ location, IsName name) :
    joinPath (splitPath (pathOf location)).1 (splitPath (pathOf location)).2 = pathOf location ∧
      '/' ∉ (splitPath (pathOf location)).2.toList := by
  obtain ⟨cs, text, single⟩ := pathOf_eq_cons named
  unfold splitPath joinPath
  cases last : Text.splitLast '/' (pathOf location).toList with
  | none =>
    have absent := Text.splitLast_eq_none.1 last
    rw [text] at absent
    exact absurd List.mem_cons_self absent
  | some parts =>
    obtain ⟨directory, name⟩ := parts
    obtain ⟨whole, noSlash⟩ := Text.splitLast_eq_some last
    have spelled : pathOf location = String.ofList (directory ++ '/' :: name) := by
      rw [← whole, String.ofList_toList]
    cases directory with
    | nil =>
      refine ⟨?_, by rw [String.toList_ofList]; exact noSlash⟩
      rw [spelled]
      apply String.toList_injective
      simp
    | cons c directory =>
      have notRoot : String.ofList (c :: directory) ≠ "/" := by
        intro root
        have root := congrArg String.toList root
        rw [String.toList_ofList] at root
        obtain ⟨rfl, rfl⟩ := List.cons.inj root
        rw [text] at whole
        exact single (congrArg List.head? (List.cons.inj whole).2)
      simp only [if_neg notRoot, String.toList_ofList]
      refine ⟨?_, noSlash⟩
      rw [spelled]
      apply String.toList_injective
      simp

theorem realPath_eq_ok {files : FileTree} {path real : String}
    (h : files.realPath path = .ok real) :
    ∃ location, files.realWalk maxLinks files.current (steps path) = .ok location ∧
      real = pathOf location := by
  unfold realPath at h
  split at h
  · cases h
  split at h
  · cases h
  cases walked : files.realWalk maxLinks files.current (steps path) with
  | error e =>
    rw [walked] at h
    cases h
  | ok location =>
    rw [walked] at h
    cases h
    exact ⟨location, rfl, rfl⟩

theorem joinPath_realPath {files : FileTree} (named : files.Named) {path real : String}
    (h : files.realPath path = .ok real) :
    joinPath (splitPath real).1 (splitPath real).2 = real ∧ '/' ∉ (splitPath real).2.toList := by
  obtain ⟨location, walked, rfl⟩ := realPath_eq_ok h
  exact joinPath_splitPath (realWalk_named walked named fun name => isName_of_mem_steps)

-- ---------------------------------------------------------------------------
-- Trees without links
-- ---------------------------------------------------------------------------

/-- Nothing that stands at a path is told to be a link. -/
theorem inspect_linkless {files : FileTree} (linkless : files.Linkless) {path target : String} :
    files.inspect path ≠ .ok (.link target) := by
  intro told
  unfold inspect at told
  cases valid : validate path with
  | error e =>
    rw [valid] at told
    cases told
  | ok =>
    simp only [valid, bind, Except.bind] at told
    split at told
    · cases walked : files.walk maxLinks files.current (steps path).dropLast with
      | error e =>
        rw [walked] at told
        cases told
      | ok place =>
        simp only [walked] at told
        split at told
        · split at told
          · cases told
          split at told
          · rename_i entry found
            cases told
            exact linkless.lookup found
          · cases told
        · cases told
        · cases told
    · cases found : files.find path with
      | error e =>
        rw [found] at told
        cases told
      | ok place =>
        obtain ⟨location, entry⟩ := place
        rw [found] at told
        cases told
        exact linkless.lookup (locate_shows (find_eq_ok.1 found))

/-- A location that is put together is the one that the parts lead to. -/
theorem realWalk_linkless {files : FileTree} (linkless : files.Linkless) {links : Nat}
    {dir location : Location} {parts : List Part}
    (real : files.realWalk links dir parts = .ok location) : location = parts.foldl move dir := by
  fun_induction realWalk files links dir parts with
  | case1 links dir =>
    cases real
    rfl
  | case2 links dir rest ih => exact ih real
  | case3 links dir rest ih => exact ih real
  | case4 links dir rest ih => exact ih real
  | case5 links dir name rest e told => cases real
  | case6 links dir name rest told ih => exact ih real
  | case7 dir name rest target told => exact absurd told (inspect_linkless linkless)
  | case8 dir name rest target told links ih => exact absurd told (inspect_linkless linkless)
  | case9 links dir name entry _ _ told =>
    cases real
    rfl
  | case10 links dir name rest entry _ _ told more => cases real

/-- The real path of a file is the one that its path spells. -/
theorem realPath_linkless {files : FileTree} (linkless : files.Linkless) {path real : String}
    (h : files.realPath path = .ok real) : real = files.absolute path := by
  obtain ⟨location, walked, rfl⟩ := realPath_eq_ok h
  unfold FileTree.absolute
  rw [realWalk_linkless linkless walked]

end FileTree

end Esm
