-- SUMMARY: Writing files, making directories and links, and removing them.
import Esm.FileTree.Walk

/-!
# Changing a file tree
-/

namespace Esm.FileTree

open Esm.Path

/-- A path's steps without its last name and what follows it. -/
def parentSteps (steps : List Part) : List Part :=
  (steps.reverse.dropWhile (· == .here)).tail.reverse

/-- The location of a path's last name, in the directory that the rest of the path leads to. -/
def nameLocation (files : FileTree) (path : String) : Except FileError Location := do
  match ← files.walk maxLinks files.current (parentSteps (steps path)) with
  | .found dir .directory =>
    match (steps path).reverse.dropWhile (· == .here) with
    | .name name :: _ => .ok (dir ++ [name])
    | _ => .error .isDirectory
  | .found _ _ => .error .notDirectory
  | .absent _ => .error .notFound

/-- Whether a path ends in a name with a slash behind it. -/
def endsInFolder (path : String) : Bool :=
  match (Text.split '/' path).reverse with
  | "" :: segments => (segments.find? (· != "")).any fun s => s != "." && s != ".."
  | _ => false

/-- Open a file for writing: empty it if it is there, make it if only its directory is. A name with
a slash behind it is that of no file. -/
def create (files : FileTree) (path : String) :
    Except FileError (FileTree × Location × Bool) := do
  validate path
  if endsInFolder path then
    let _ ← files.nameLocation path
    .error .isDirectory
  else
    match ← files.locate path with
    | .absent location => .ok (files.set location (.file []), location, true)
    | .found location (.file _) => .ok (files.set location (.file []), location, true)
    | .found _ .locked => .error .permissionDenied
    | .found location (.device hasRoom) => .ok (files, location, hasRoom)
    | .found _ _ => .error .isDirectory

/-- Write bytes to a file opened with `create`. -/
def fill (files : FileTree) (location : Location) (bytes : List UInt8) : FileTree :=
  match files.lookup location with
  | some (.file _) => files.set location (.file bytes)
  | _ => files

/-- Make the directories on the way along steps that are missing, links followed. -/
def makeAlong (files : FileTree) (links : Nat) (dir : Location) :
    List Part → Except FileError (FileTree × Location)
  | [] => .ok (files, dir)
  | .root :: rest => makeAlong files links [] rest
  | .here :: rest => makeAlong files links dir rest
  | .up :: rest => makeAlong files links dir.dropLast rest
  | .name name :: rest =>
    if name.utf8ByteSize > maxName then .error .nameTooLong
    else
      match files.lookup (dir ++ [name]) with
      | none => makeAlong (files.set (dir ++ [name]) .directory) links (dir ++ [name]) rest
      | some .directory => makeAlong files links (dir ++ [name]) rest
      | some (.link target) =>
        match links with
        | 0 => .error .tooManyLinks
        | links + 1 => makeAlong files links dir (steps target ++ rest)
      | some _ => .error .notDirectory
termination_by parts => (links, parts.length)

/-- Make a directory and those above it, and answer with its location. -/
def makeDirectories (files : FileTree) (path : String) : Except FileError (FileTree × Location) :=
  files.makeAlong maxLinks files.current (steps path)

/-- Make the directory that a path's last name goes into. -/
def makeParents (files : FileTree) (path : String) : Except FileError FileTree :=
  (files.makeAlong maxLinks files.current (parentSteps (steps path))).map Prod.fst

/-- Write a file, its directories made if need be. -/
def write (files : FileTree) (path : String) (bytes : List UInt8) : Except FileError FileTree := do
  let files ← files.makeParents path
  let (files, location, _) ← files.create path
  .ok (files.fill location bytes)

/-- Make a symbolic link, its directories made if need be. -/
def makeLink (files : FileTree) (path target : String) : Except FileError FileTree := do
  let files ← files.makeParents path
  .ok (files.set (← files.nameLocation path) (.link target))

/-- Remove a file, a link or a whole directory. -/
def remove (files : FileTree) (path : String) : Except FileError FileTree := do
  .ok (files.erase (← files.nameLocation path))

/-- Go to a directory, which is made if need be. -/
def enter (files : FileTree) (path : String) : Except FileError FileTree := do
  let (files, location) ← files.makeDirectories path
  .ok { files with current := location }

end Esm.FileTree
