-- SUMMARY: A file tree in memory: directories, files, symbolic links and devices.
import Esm.Path.Basic

/-!
# File trees

A location is the list of names on the way from the root. The tree holds an entry for each location
in use, the root apart, which is always a directory; and it knows the directory that relative paths
start from.
-/

namespace Esm

/-- Why a file operation is refused. -/
inductive FileError where
  | notFound
  | permissionDenied
  | noSuchDevice
  | notDirectory
  | isDirectory
  | noSpace
  | nameTooLong
  | tooManyLinks
  | nulInPath
deriving DecidableEq, Repr

def FileError.message : FileError → String
  | .notFound => "No such file or directory (os error 2)"
  | .permissionDenied => "Permission denied (os error 13)"
  | .noSuchDevice => "No such device (os error 19)"
  | .notDirectory => "Not a directory (os error 20)"
  | .isDirectory => "Is a directory (os error 21)"
  | .noSpace => "No space left on device (os error 28)"
  | .nameTooLong => "File name too long (os error 36)"
  | .tooManyLinks => "Too many levels of symbolic links (os error 40)"
  | .nulInPath => "file name contained an unexpected NUL byte"

/-- The names on the way from the root. -/
abbrev Location := List String

namespace FileTree

/-- What stands at a location. A locked entry is a file that may not be opened. A device reads as empty;
it takes what is written to it, or has no room. -/
inductive Entry where
  | directory
  | file (bytes : List UInt8)
  | locked
  | link (target : String)
  | device (hasRoom : Bool)
deriving DecidableEq, Repr

/-- Whether it is a regular file. -/
def Entry.isRegular : Entry → Bool
  | .file _ => true
  | .locked => true
  | _ => false

end FileTree

/-- A file tree and the current directory. -/
structure FileTree where
  entries : List (Location × FileTree.Entry)
  current : Location
deriving DecidableEq, Repr

namespace FileTree

/-- The tree that holds no more than the two devices. -/
def bare : FileTree :=
  ⟨[(["dev"], .directory), (["dev", "null"], .device true), (["dev", "full"], .device false)], []⟩

/-- The entry at a location. -/
def lookup (files : FileTree) (location : Location) : Option Entry :=
  files.entries.lookup location

/-- Put an entry at a location, in place of what is there. -/
def set (files : FileTree) (location : Location) (entry : Entry) : FileTree :=
  { files with
    entries := (location, entry) :: files.entries.filter fun e => e.1 != location }

/-- Take away a location and everything below it. -/
def erase (files : FileTree) (location : Location) : FileTree :=
  { files with entries := files.entries.filter fun e => !location.isPrefixOf e.1 }

theorem lookup_set (files : FileTree) (location other : Location) (entry : Entry) :
    (files.set location entry).lookup other =
      if other = location then some entry else files.lookup other := by
  simp only [set, lookup, List.lookup_cons]
  by_cases same : other = location
  · simp [same]
  · have differs : (other == location) = false := by simpa using same
    simp only [differs, same, if_false]
    induction files.entries with
    | nil => rfl
    | cons e entries ih =>
      obtain ⟨key, value⟩ := e
      by_cases kept : key = location
      · simp [kept, List.lookup_cons, differs, ih]
      · simp [kept, List.lookup_cons, ih]

/-- The path of a location. -/
def pathOf (location : Location) : String := "/" ++ "/".intercalate location

end FileTree

end Esm
