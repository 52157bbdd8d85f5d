-- SUMMARY: Writing a file changes what its location holds, and no path leads anywhere else for it.
import Esm.FileTree.Change
import Esm.Proofs.FileTree.Lexical

/-!
# Writing

A file is written where a path leads to a regular file, or to nothing in a directory that is there.
Whatever path led somewhere before leads to the same place afterwards, also if links are followed on
the way, and finds the new bytes there if that is the place that was written. Every other location
holds what it held.
-/

namespace Esm.FileTree

open Esm.Path

-- ---------------------------------------------------------------------------
-- Setting an entry
-- ---------------------------------------------------------------------------

theorem set_set (files : FileTree) (location : Location) (entry other : Entry) :
    (files.set location entry).set location other = files.set location other := by
  simp [set]

/-- A location that holds a regular file or nothing. -/
def Free (files : FileTree) (location : Location) : Prop :=
  files.lookup location = none ∨ ∃ bytes, files.lookup location = some (.file bytes)

-- ---------------------------------------------------------------------------
-- Walks
-- ---------------------------------------------------------------------------

/-- What a place says about the tree. A directory is reached in passing as well, and then nothing is
looked up. -/
def Shows (files : FileTree) : Place → Prop
  | .found _ .directory => True
  | .found location entry => files.lookup location = some entry
  | .absent location => files.lookup location = none

/-- What is found at the end of a walk stands there. -/
theorem walk_shows {files : FileTree} {links : Nat} {dir : Location} {parts : List Part}
    {place : Place} (walked : files.walk links dir parts = .ok place) : files.Shows place := by
  fun_induction FileTree.walk files links dir parts with
  | case1 links dir =>
    cases walked
    exact trivial
  | case2 links dir rest ih => exact ih walked
  | case3 links dir rest ih => exact ih walked
  | case4 links dir rest ih => exact ih walked
  | case5 links dir name rest long => cases walked
  | case6 links dir name short absent =>
    cases walked
    exact absent
  | case7 links dir name rest short absent more => cases walked
  | case8 links dir name rest short found ih => exact ih walked
  | case9 dir name rest short target found => cases walked
  | case10 dir name rest short target found links ih => exact ih walked
  | case11 links dir name short entry _ _ found =>
    cases walked
    cases entry with
    | directory => exact trivial
    | file bytes => exact found
    | locked => exact found
    | link target => exact found
    | device hasRoom => exact found
  | case12 links dir name rest short entry _ _ found more => cases walked

/-- The place that a walk ends at once a file has been written. -/
def Place.written (location : Location) (bytes : List UInt8) : Place → Place
  | .found other (.file old) => .found other (.file (if other = location then bytes else old))
  | .absent other => if other = location then .found other (.file bytes) else .absent other
  | place => place

/-- A walk ends at the same location once a file has been written. -/
theorem walk_set {files : FileTree} {location : Location} (free : files.Free location)
    (bytes : List UInt8) {links : Nat} {dir : Location} {parts : List Part} {place : Place}
    (walked : files.walk links dir parts = .ok place) :
    (files.set location (.file bytes)).walk links dir parts =
      .ok (place.written location bytes) := by
  have other : ∀ {l : Location} {entry : Entry}, files.lookup l = some entry →
      (∀ old, entry ≠ .file old) → (files.set location (.file bytes)).lookup l = some entry := by
    intro l entry found noFile
    rw [lookup_set, if_neg ?_, found]
    rintro rfl
    obtain none | ⟨old, file⟩ := free
    · rw [found] at none
      cases none
    · rw [found] at file
      cases file
      exact noFile old rfl
  fun_induction FileTree.walk files links dir parts with
  | case1 links dir =>
    cases walked
    rw [walk]
    rfl
  | case2 links dir rest ih =>
    rw [walk]
    exact ih walked
  | case3 links dir rest ih =>
    rw [walk]
    exact ih walked
  | case4 links dir rest ih =>
    rw [walk]
    exact ih walked
  | case5 links dir name rest long => cases walked
  | case6 links dir name short absent =>
    cases walked
    rw [walk, if_neg short, lookup_set]
    unfold Place.written
    by_cases here : dir ++ [name] = location
    · simp [here]
    · simp [here, absent]
  | case7 links dir name rest short absent more => cases walked
  | case8 links dir name rest short found ih =>
    rw [walk, if_neg short, other found fun _ same => by cases same]
    exact ih walked
  | case9 dir name rest short target found => cases walked
  | case10 dir name rest short target found links ih =>
    rw [walk, if_neg short, other found fun _ same => by cases same]
    exact ih walked
  | case11 links dir name short entry noDirectory noLink found =>
    cases walked
    rw [walk, if_neg short]
    cases entry with
    | directory => exact absurd rfl noDirectory
    | link target => exact absurd rfl (noLink target)
    | locked =>
      rw [other found fun _ same => by cases same]
      rfl
    | device hasRoom =>
      rw [other found fun _ same => by cases same]
      rfl
    | file old =>
      rw [lookup_set]
      unfold Place.written
      by_cases here : dir ++ [name] = location
      · simp [here]
      · simp [here, found]
  | case12 links dir name rest short entry _ _ found more => cases walked

-- ---------------------------------------------------------------------------
-- Paths
-- ---------------------------------------------------------------------------

theorem locate_eq_ok {files : FileTree} {path : String} {place : Place} :
    files.locate path = .ok place ↔
      validate path = .ok () ∧ files.walk maxLinks files.current (steps path) = .ok place := by
  unfold locate
  cases validate path with
  | error e => exact ⟨nofun, fun h => nomatch h.1⟩
  | ok => exact ⟨fun h => ⟨rfl, h⟩, fun h => h.2⟩

theorem find_eq_ok {files : FileTree} {path : String} {location : Location} {entry : Entry} :
    files.find path = .ok (location, entry) ↔ files.locate path = .ok (.found location entry) := by
  unfold find
  cases files.locate path with
  | error e => exact ⟨nofun, nofun⟩
  | ok place =>
    cases place with
    | absent location => exact ⟨nofun, nofun⟩
    | found location' entry' =>
      constructor
      · rintro ⟨⟩
        rfl
      · rintro ⟨⟩
        rfl

/-- A file in the current directory is found by its name. -/
theorem find_file {files : FileTree} {path name : String} {bytes : List UInt8}
    (valid : validate path = .ok ()) (named : steps path = [.name name])
    (short : name.utf8ByteSize ≤ maxName)
    (there : files.lookup (files.current ++ [name]) = some (.file bytes)) :
    files.find path = .ok (files.current ++ [name], .file bytes) := by
  refine find_eq_ok.2 (locate_eq_ok.2 ⟨valid, ?_⟩)
  rw [named]
  exact walk_file maxLinks short there

/-- A name that nothing in the current directory has is not found. -/
theorem find_absent {files : FileTree} {path name : String} (valid : validate path = .ok ())
    (named : steps path = [.name name]) (short : name.utf8ByteSize ≤ maxName)
    (absent : files.lookup (files.current ++ [name]) = none) :
    files.find path = .error .notFound := by
  have located : files.locate path = .ok (.absent (files.current ++ [name])) := by
    rw [locate_eq_ok, named, walk_missing maxLinks short absent]
    exact ⟨valid, rfl⟩
  unfold find
  rw [located]
  rfl

theorem locate_shows {files : FileTree} {path : String} {place : Place}
    (located : files.locate path = .ok place) : files.Shows place :=
  walk_shows (locate_eq_ok.1 located).2

/-- A path leads to the same place once a file has been written. -/
theorem locate_set {files : FileTree} {location : Location} (free : files.Free location)
    (bytes : List UInt8) {path : String} {place : Place} (located : files.locate path = .ok place) :
    (files.set location (.file bytes)).locate path = .ok (place.written location bytes) := by
  obtain ⟨valid, walked⟩ := locate_eq_ok.1 located
  exact locate_eq_ok.2 ⟨valid, walk_set free bytes walked⟩

-- ---------------------------------------------------------------------------
-- Creating and filling
-- ---------------------------------------------------------------------------

/-- A file is created where there is one or where there is nothing, and a device is left alone. -/
theorem create_eq_ok {files files' : FileTree} {path : String} {location : Location}
    {hasRoom : Bool} (created : files.create path = .ok (files', location, hasRoom)) :
    (∃ place, files.locate path = .ok place ∧
      (place = .absent location ∨ ∃ old, place = .found location (.file old)) ∧
      files' = files.set location (.file []) ∧ hasRoom = true) ∨
    (files.locate path = .ok (.found location (.device hasRoom)) ∧ files' = files) := by
  unfold create at created
  cases valid : validate path with
  | error e =>
    rw [valid] at created
    cases created
  | ok =>
    simp only [valid, bind, Except.bind] at created
    split at created
    · cases named : files.nameLocation path with
      | error e =>
        rw [named] at created
        cases created
      | ok l =>
        rw [named] at created
        cases created
    · cases located : files.locate path with
      | error e =>
        rw [located] at created
        cases created
      | ok place =>
        rw [located] at created
        dsimp only at created
        split at created
        · cases created
          exact Or.inl ⟨_, rfl, Or.inl rfl, rfl, rfl⟩
        · cases created
          exact Or.inl ⟨_, rfl, Or.inr ⟨_, rfl⟩, rfl, rfl⟩
        · cases created
        · cases created
          exact Or.inr ⟨rfl, rfl⟩
        · cases created

theorem fill_set (files : FileTree) (location : Location) (old bytes : List UInt8) :
    (files.set location (.file old)).fill location bytes = files.set location (.file bytes) := by
  unfold fill
  rw [lookup_set, if_pos rfl]
  exact set_set files location _ _

theorem fill_device {files : FileTree} {location : Location} {hasRoom : Bool}
    (found : files.lookup location = some (.device hasRoom)) (bytes : List UInt8) :
    files.fill location bytes = files := by
  unfold fill
  rw [found]

/-- What writing bytes to a path comes to: a file holds them, old or new, or a device took them. -/
inductive Writes (files : FileTree) (path : String) (bytes : List UInt8) : FileTree → Prop where
  | file {location : Location} {place : Place} : files.locate path = .ok place →
    (place = .absent location ∨ ∃ old, place = .found location (.file old)) →
    Writes files path bytes (files.set location (.file bytes))
  | device {location : Location} : files.locate path = .ok (.found location (.device true)) →
    Writes files path bytes files

/-- Filling what was created writes the bytes, and if there is no room for them nothing has
changed. -/
theorem create_writes {files files' : FileTree} {path : String} {location : Location}
    {hasRoom : Bool} (created : files.create path = .ok (files', location, hasRoom))
    (bytes : List UInt8) :
    if hasRoom then Writes files path bytes (files'.fill location bytes) else files' = files := by
  obtain ⟨place, located, free, rfl, rfl⟩ | ⟨located, rfl⟩ := create_eq_ok created
  · rw [if_pos rfl, fill_set]
    exact .file located free
  · cases hasRoom with
    | false => exact rfl
    | true =>
      rw [if_pos rfl, fill_device (locate_shows located)]
      exact .device located

theorem Writes.free {files : FileTree} {path : String} {location : Location} {place : Place}
    (located : files.locate path = .ok place)
    (free : place = .absent location ∨ ∃ old, place = .found location (.file old)) :
    files.Free location := by
  have shows := locate_shows located
  obtain rfl | ⟨old, rfl⟩ := free
  · exact Or.inl shows
  · exact Or.inr ⟨old, shows⟩

/-- The path that was written leads somewhere afterwards. If that is a regular file, then it is the
one that was written, and it holds the bytes. -/
theorem Writes.located {files files' : FileTree} {path : String} {bytes : List UInt8}
    (writes : Writes files path bytes files') :
    ∃ location entry, files'.locate path = .ok (.found location entry) ∧
      ∀ content, entry = .file content → content = bytes ∧ files.Free location ∧
        files' = files.set location (.file bytes) := by
  cases writes with
  | @file location place located free =>
    have isFree := Writes.free located free
    refine ⟨location, .file bytes, ?_, ?_⟩
    · rw [locate_set isFree bytes located]
      obtain rfl | ⟨old, rfl⟩ := free
      · simp [Place.written]
      · simp [Place.written]
    · rintro content ⟨⟩
      exact ⟨rfl, isFree, rfl⟩
  | device located => exact ⟨_, _, located, nofun⟩

/-- A path that led somewhere, and leads to another file than the one that was written, led to that
other file before. -/
theorem find_of_find_set {files : FileTree} {location other : Location} (free : files.Free location)
    {bytes content : List UInt8} {path : String} {place : Place}
    (located : files.locate path = .ok place) (apart : other ≠ location)
    (found : (files.set location (.file bytes)).find path = .ok (other, .file content)) :
    files.find path = .ok (other, .file content) := by
  have after := find_eq_ok.1 found
  rw [locate_set free bytes located] at after
  rw [find_eq_ok, located]
  unfold Place.written at after
  split at after
  · rename_i l old
    cases after
    rw [if_neg apart]
  · split at after
    · rename_i here
      cases after
      exact absurd here apart
    · cases after
  · exact after

end Esm.FileTree
