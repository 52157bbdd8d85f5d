-- SUMMARY: From an import specifier and the importing module to the location of the module meant.
import Esm.Location.Library
import Esm.Location.Probe
import Esm.Location.Specifier
import Esm.Path.Reduced
import Esm.Url.Basic

/-!
# Resolution

Resolution never fails. A specifier that leads to a file is resolved to the file's path; any other
is passed on in a form that can still serve as the name of a module. Relative specifiers are joined
to the directory of the importing module, or to its address if that is on the web.
-/

namespace Esm

/-- The location that a specifier means. -/
inductive Resolution where
  /-- A path: that of a file, or what a relative specifier comes to. -/
  | resolved (path : String)
  /-- An address, a name, or an absolute path that leads to no file. -/
  | unchanged (name : String)
deriving DecidableEq, Repr

namespace Resolution

def location : Resolution → String
  | .resolved path => path
  | .unchanged name => name

end Resolution

namespace Location

open Esm.Path

/-- The parts of the directory of an importing module. A name without a directory is in the current
one. -/
def referrerDirectory (referrer : String) : List Part :=
  match Path.parent referrer with
  | some [] => [.here]
  | some parts => parts
  | none => if isAbsolute referrer then [.root] else [.here]

/-- A relative specifier joined to the directory of the importing module, in normal form. -/
def joinRelative (referrer specifier : String) : Reduced :=
  Reduced.ofParts (referrerDirectory referrer ++ Path.parts specifier)

/-- A relative specifier joined to the address of the importing module. If that is no address, the
specifier is put behind its last slash. -/
def joinUrl (referrer specifier : String) : String :=
  match Url.ofText referrer with
  | .ok base => (base.join specifier).text
  | .error _ =>
    let directory :=
      match Text.splitLast '/' referrer.toList with
      | some (before, _) => String.ofList before
      | none => referrer
    directory ++ "/" ++ specifier

/-- The names that are probed for a specifier, in order. -/
def stems (roots : List String) (specifier referrer : String) : List String :=
  match Specifier.kind specifier with
  | .relative | .parentRelative =>
    if Specifier.isUrl referrer then [] else [(joinRelative referrer specifier).text]
  | .absolute => [specifier]
  | .bare => roots.map (Path.join · specifier)
  | .url => []

/-- What a specifier means if no file is found for it. -/
def unprobed (specifier referrer : String) : Resolution :=
  match Specifier.kind specifier with
  | .relative | .parentRelative =>
    if Specifier.isUrl referrer then .unchanged (joinUrl referrer specifier)
    else .resolved (joinRelative referrer specifier).text
  | _ => .unchanged specifier

/-- Resolve a specifier of the module at `referrer`. -/
def resolve (files : FileTree) (roots : List String) (specifier referrer : String) : Resolution :=
  match (stems roots specifier referrer).findSome? (probe files) with
  | some path => .resolved path
  | none => unprobed specifier referrer

end Location

end Esm
