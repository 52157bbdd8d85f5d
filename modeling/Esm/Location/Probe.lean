-- SUMMARY: Finding the file of a module name: suffixes and library directories, each in order.
import Esm.FileTree.Walk

/-!
# Probing

A module may be named without its suffix. The name itself, the name of a script, of a directory with
an index and of an addon are tried in this order, and the first regular file is taken. A library
module is tried so under each directory of the search path in turn.
-/

namespace Esm.Location

/-- What may be left out of the name of a module, in the order in which it is tried. -/
def suffixes : List String := ["", ".js", "/index.js", ".so"]

/-- The paths that a name may stand for. -/
def candidates (stem : String) : List String := suffixes.map (stem ++ ·)

/-- The first regular file that a name may stand for. -/
def probe (files : FileTree) (stem : String) : Option String :=
  (candidates stem).find? files.isFile

/-- The first regular file that a name may stand for under one of the directories. -/
def search (files : FileTree) (roots : List String) (name : String) : Option String :=
  roots.findSome? fun root => probe files (Path.join root name)

/-- A path to a regular file stands for itself. -/
theorem probe_of_find {files : FileTree} {path : String} {location : Location}
    {entry : FileTree.Entry} (found : files.find path = .ok (location, entry))
    (regular : entry.isRegular = true) : probe files path = some path := by
  have file : files.isFile (path ++ "") = true := by
    unfold FileTree.isFile
    rw [String.append_empty, found]
    exact regular
  have first : probe files path = some (path ++ "") := List.find?_cons_of_pos file
  rw [first, String.append_empty]

end Esm.Location
