-- SUMMARY: Without symbolic links a path leads where its parts say, whatever files there are.
import Esm.FileTree.Walk

/-!
# Lexical paths

Where a walk ends depends on the files it meets, because some of them may be links. In a tree without
links only its parts count.
-/

namespace Esm.FileTree

open Esm.Path

def Entry.isLink : Entry → Bool
  | .link _ => true
  | _ => false

/-- There are no symbolic links. -/
def Linkless (files : FileTree) : Prop := ∀ e ∈ files.entries, e.2.isLink = false

instance (files : FileTree) : Decidable files.Linkless :=
  inferInstanceAs (Decidable (∀ e ∈ files.entries, e.2.isLink = false))

/-- Go on from a location by one part. Above the root is the root. -/
def move (location : Location) : Part → Location
  | .root => []
  | .here => location
  | .up => location.dropLast
  | .name text => location ++ [text]

/-- The absolute path without dots that a path spells. No file is looked at. -/
def absolute (files : FileTree) (path : String) : String :=
  pathOf ((steps path).foldl move files.current)

def Place.location : Place → Location
  | .found location _ => location
  | .absent location => location

theorem mem_entries {files : FileTree} {location : Location} {entry : Entry}
    (found : files.lookup location = some entry) : (location, entry) ∈ files.entries := by
  unfold FileTree.lookup at found
  obtain ⟨before, after, entries, -⟩ := List.lookup_eq_some_iff.1 found
  rw [entries]
  exact List.mem_append_right _ List.mem_cons_self

theorem Linkless.lookup {files : FileTree} (linkless : files.Linkless) {location : Location}
    {target : String} : files.lookup location ≠ some (.link target) := by
  intro found
  exact Bool.noConfusion (linkless _ (mem_entries found))

/-- A walk that succeeds ends where its parts lead. -/
theorem walk_linkless {files : FileTree} (linkless : files.Linkless) {links : Nat} {dir : Location}
    {parts : List Part} {place : Place} (h : files.walk links dir parts = .ok place) :
    place.location = parts.foldl move dir := by
  fun_induction FileTree.walk files links dir parts with
  | case1 links dir =>
    cases h
    rfl
  | case2 links dir rest ih => exact ih h
  | case3 links dir rest ih => exact ih h
  | case4 links dir rest ih => exact ih h
  | case5 links dir name rest long => cases h
  | case6 links dir name short absent =>
    cases h
    rfl
  | case7 links dir name rest short absent more => cases h
  | case8 links dir name rest short found ih => exact ih h
  | case9 dir name rest short target found => exact absurd found linkless.lookup
  | case10 dir name rest short target found links ih => exact absurd found linkless.lookup
  | case11 links dir name short entry _ _ found =>
    cases h
    rfl
  | case12 links dir name rest short entry _ _ found more => cases h

end Esm.FileTree
