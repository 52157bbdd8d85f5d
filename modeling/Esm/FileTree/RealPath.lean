-- SUMMARY: The real path of what a path leads to, put together name by name.
import Esm.FileTree.Walk

/-!
# Real paths

The real path of a file is put together along the path that leads to it. At each name the system is
asked, by the absolute path so far, what stands there; a symbolic link is replaced by its target. So
each of the paths on the way has to be fit for a system call, however short the path was that it began
with.
-/

namespace Esm.FileTree

open Esm.Path

/-- What stands at a path. A link at its end is not followed. -/
def inspect (files : FileTree) (path : String) : Except FileError Entry := do
  validate path
  match (steps path).getLast? with
  | some (.name name) =>
    match ← files.walk maxLinks files.current (steps path).dropLast with
    | .found dir .directory =>
      if name.utf8ByteSize > maxName then .error .nameTooLong
      else
        match files.lookup (dir ++ [name]) with
        | some entry => .ok entry
        | none => .error .notFound
    | .found _ _ => .error .notDirectory
    | .absent _ => .error .notFound
  | _ => (·.2) <$> files.find path

/-- Put a location together along steps, with so many links still allowed. -/
def realWalk (files : FileTree) (links : Nat) (dir : Location) :
    List Part → Except FileError Location
  | [] => .ok dir
  | .root :: rest => realWalk files links [] rest
  | .here :: rest => realWalk files links dir rest
  | .up :: rest => realWalk files links dir.dropLast rest
  | .name name :: rest =>
    match files.inspect (pathOf (dir ++ [name])) with
    | .error e => .error e
    | .ok .directory => realWalk files links (dir ++ [name]) rest
    | .ok (.link target) =>
      match links with
      | 0 => .error .tooManyLinks
      | links + 1 => realWalk files links dir (steps target ++ rest)
    | .ok _ => if rest = [] then .ok (dir ++ [name]) else .error .notDirectory
termination_by parts => (links, parts.length)

/-- The real path of what a path leads to: absolute, and free of links. -/
def realPath (files : FileTree) (path : String) : Except FileError String :=
  if '\x00' ∈ path.toList then .error .nulInPath
  else if path = "" then .error .notFound
  else pathOf <$> files.realWalk maxLinks files.current (steps path)

end Esm.FileTree
