-- SUMMARY: The properties that a module's import.meta tells about its location.
import Esm.FileTree.RealPath
import Esm.LoadError
import Esm.Registry.Basic

/-!
# Stamps

Every loaded module is stamped with its address and with whether it is the main module. A module
from a file is stamped with its real path, split into directory and file name.
-/

namespace Esm

/-- The directory and the name of a path. -/
def splitPath (path : String) : String × String :=
  match Text.splitLast '/' path.toList with
  | some ([], name) => ("/", String.ofList name)
  | some (directory, name) => (String.ofList directory, String.ofList name)
  | none => ("", path)

namespace Registry

/-- The properties to define for a location: with `real` those of the file it leads to. -/
def stampOf (files : FileTree) (location : String) (real main : Bool) :
    Except LoadError (List (String × MetaValue)) :=
  if real then do
    let canonical ← (files.realPath location).mapError (LoadError.realPath location)
    let (directory, name) := splitPath canonical
    .ok [("url", .text ("file://" ++ canonical)), ("main", .flag main),
      ("dirname", .text directory), ("basename", .text name)]
  else .ok [("url", .text location), ("main", .flag main)]

/-- Stamp a module. -/
def stamp (r : Registry) (files : FileTree) (h : Handle) (location : String) (real main : Bool) :
    Except LoadError Registry := do
  let properties ← stampOf files location real main
  match r.get? h with
  | none => .error (.unknownHandle h)
  | some _ => .ok (properties.foldl (fun r p => r.define h p.1 p.2) r)

end Registry

end Esm
