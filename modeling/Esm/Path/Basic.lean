-- SUMMARY: Path texts, their parts and the operations on them.
import Esm.Text.Split

/-!
# Paths

A path is a text. Its parts are what stands between slashes: an absolute path starts with the root,
repeated and trailing slashes do not count, and a dot counts only at the start of a relative path.
-/

namespace Esm.Path

open Text

/-! ## Parts -/

/-- One part of a path. -/
inductive Part where
  | root
  | here
  | up
  | name (text : String)
deriving DecidableEq, Repr

/-- What a segment behind the first stands for; an empty one and a dot stand for nothing. -/
def Part.ofSegment (segment : String) : Option Part :=
  if segment = "" || segment = "." then none
  else if segment = ".." then some .up
  else some (.name segment)

/-- Whether a path starts at the root. -/
def isAbsolute (path : String) : Bool := path.toList.head? == some '/'

/-- The parts of a path, in order. -/
def parts (path : String) : List Part :=
  let segments := split '/' path
  let first : List Part :=
    if isAbsolute path then [.root] else if segments.head? = some "." then [.here] else []
  first ++ segments.filterMap Part.ofSegment

/-- The last part, if it is a name. -/
def fileName (path : String) : Option String :=
  match (parts path).getLast? with
  | some (.name text) => some text
  | _ => none

/-- What follows the last dot of the file name, unless that dot is its first character. -/
def extension (path : String) : Option String := do
  let name ← fileName path
  let (stem, extension) ← splitLast '.' name.toList
  if stem.isEmpty then none else some (String.ofList extension)

/-- The parts of the directory that a path names an entry of. The root has none. -/
def parent (path : String) : Option (List Part) :=
  match (parts path).getLast? with
  | none => none
  | some .root => none
  | some _ => some (parts path).dropLast

/-! ## Joining -/

/-- Go on from a path with another. An absolute path replaces the first, and an empty one leaves a
trailing slash. -/
def join (path more : String) : String :=
  if isAbsolute more || path = "" then more
  else if path.toList.getLast? = some '/' then path ++ more
  else path ++ "/" ++ more

end Esm.Path
