-- SUMMARY: Following a path through a file tree, symbolic links included.
import Esm.FileTree.Basic

/-!
# Walks

A path is followed part by part. Each part but the last has to lead to a directory, a trailing slash
asks for a directory too, and `..` goes to the directory above the one reached. A symbolic link is
replaced by its target, at most forty times on one walk.
-/

namespace Esm.FileTree

open Esm.Path

/-- How many symbolic links one walk may follow. -/
def maxLinks : Nat := 40

/-- The longest name, in bytes. -/
def maxName : Nat := 255

/-- The longest path, in bytes. -/
def maxPath : Nat := 4095

/-- The parts of a path to follow. Unlike the lexical parts these keep every dot, and an empty
segment counts as one: it asks for a directory as well. -/
def steps (path : String) : List Part :=
  let toStep (segment : String) : Part :=
    if segment = "" || segment = "." then .here else if segment = ".." then .up else .name segment
  let steps := (Text.split '/' path).map toStep
  if isAbsolute path then .root :: steps else steps

/-- Where a walk ends: at an entry, or at a location that holds none although its directory is
there. -/
inductive Place where
  | found (location : Location) (entry : Entry)
  | absent (location : Location)
deriving DecidableEq, Repr

/-- Follow steps from the directory `dir`, with so many links still allowed. -/
def walk (files : FileTree) (links : Nat) (dir : Location) : List Part → Except FileError Place
  | [] => .ok (.found dir .directory)
  | .root :: rest => walk files links [] rest
  | .here :: rest => walk files links dir rest
  | .up :: rest => walk files links dir.dropLast rest
  | .name name :: rest =>
    if name.utf8ByteSize > maxName then .error .nameTooLong
    else
      match files.lookup (dir ++ [name]) with
      | none => if rest = [] then .ok (.absent (dir ++ [name])) else .error .notFound
      | some .directory => walk files links (dir ++ [name]) rest
      | some (.link target) =>
        match links with
        | 0 => .error .tooManyLinks
        | links + 1 => walk files links dir (steps target ++ rest)
      | some entry =>
        if rest = [] then .ok (.found (dir ++ [name]) entry) else .error .notDirectory
termination_by parts => (links, parts.length)

section

variable {files : FileTree} {dir : Location} {name : String} {rest : List Part}

theorem walk_root (files : FileTree) (links : Nat) (dir : Location) (rest : List Part) :
    files.walk links dir (.root :: rest) = files.walk links [] rest := by
  rw [walk]

theorem walk_here (files : FileTree) (links : Nat) (dir : Location) (rest : List Part) :
    files.walk links dir (.here :: rest) = files.walk links dir rest := by
  rw [walk]

theorem walk_up (files : FileTree) (links : Nat) (dir : Location) (rest : List Part) :
    files.walk links dir (.up :: rest) = files.walk links dir.dropLast rest := by
  rw [walk]

/-- A walk goes on in a directory. -/
theorem walk_directory (links : Nat) (short : name.utf8ByteSize ≤ maxName)
    (found : files.lookup (dir ++ [name]) = some .directory) :
    files.walk links dir (.name name :: rest) = files.walk links (dir ++ [name]) rest := by
  rw [walk, if_neg (Nat.not_lt.2 short), found]

/-- A walk goes on along the target of a link. -/
theorem walk_link (links : Nat) (short : name.utf8ByteSize ≤ maxName) {target : String}
    (found : files.lookup (dir ++ [name]) = some (.link target)) :
    files.walk (links + 1) dir (.name name :: rest) =
      files.walk links dir (steps target ++ rest) := by
  rw [walk, if_neg (Nat.not_lt.2 short), found]

/-- A walk ends at a file. -/
theorem walk_file {content : List UInt8} (links : Nat) (short : name.utf8ByteSize ≤ maxName)
    (found : files.lookup (dir ++ [name]) = some (.file content)) :
    files.walk links dir [.name name] = .ok (.found (dir ++ [name]) (.file content)) := by
  rw [walk, if_neg (Nat.not_lt.2 short), found]
  rfl

/-- A walk that nothing is found on ends there if this was its last step. -/
theorem walk_missing (links : Nat) (short : name.utf8ByteSize ≤ maxName)
    (absent : files.lookup (dir ++ [name]) = none) : files.walk links dir (.name name :: rest) =
      if rest = [] then .ok (.absent (dir ++ [name])) else .error .notFound := by
  rw [walk, if_neg (Nat.not_lt.2 short), absent]

end

/-- Refuse a text that is no path, whatever files there are. -/
def validate (path : String) : Except FileError Unit :=
  if '\x00' ∈ path.toList then .error .nulInPath
  else if path = "" then .error .notFound
  else if path.utf8ByteSize > maxPath then .error .nameTooLong
  else .ok ()

/-- Follow a path. -/
def locate (files : FileTree) (path : String) : Except FileError Place := do
  validate path
  files.walk maxLinks files.current (steps path)

/-- The entry that a path leads to, and its location. -/
def find (files : FileTree) (path : String) : Except FileError (Location × Entry) := do
  match ← files.locate path with
  | .found location entry => .ok (location, entry)
  | .absent _ => .error .notFound

/-! ## Questions -/

/-- Whether a path leads to a regular file. -/
def isFile (files : FileTree) (path : String) : Bool :=
  match files.find path with
  | .ok (_, entry) => entry.isRegular
  | .error _ => false

/-- Check that there is something at a path. -/
def check (files : FileTree) (path : String) : Except FileError Unit := do
  let _ ← files.find path

/-- The bytes of the file that a path leads to. -/
def read (files : FileTree) (path : String) : Except FileError (List UInt8) := do
  match (← files.find path).2 with
  | .file bytes => .ok bytes
  | .locked => .error .permissionDenied
  | .device _ => .ok []
  | _ => .error .isDirectory

theorem read_of_find {files : FileTree} {path : String} {location : Location} {bytes : List UInt8}
    (found : files.find path = .ok (location, .file bytes)) : files.read path = .ok bytes := by
  unfold read
  rw [found]
  rfl

end Esm.FileTree
