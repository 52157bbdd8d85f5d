-- SUMMARY: What a module location holds.
import Esm.Location.Specifier
import Esm.Path.Basic

/-!
# Kinds of content

A web location holds a script. Any other location is a file, whose extension tells what it holds.
-/

namespace Esm

/-- What a location holds. -/
inductive ContentKind where
  | script
  | nativeAddon
  | json
  | remoteScript
deriving DecidableEq, Repr

namespace ContentKind

def ofLocation (location : String) : ContentKind :=
  if Specifier.isUrl location then .remoteScript
  else
    match Path.extension location with
    | some "so" => .nativeAddon
    | some "json" => .json
    | _ => .script

/-- Whether the content is a file. -/
def isFile : ContentKind → Bool
  | .remoteScript => false
  | _ => true

end ContentKind

end Esm
