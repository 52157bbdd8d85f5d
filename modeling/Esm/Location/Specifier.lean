-- SUMMARY: Import specifiers and the classes that their first characters decide.

/-!
# Specifiers

The first characters of a specifier decide what it names: a file relative to the importing module,
an absolute path, a remote module, or, if none of these, a module of a library.
-/

namespace Esm

/-- What an import specifier names. -/
inductive SpecifierKind where
  | relative
  | parentRelative
  | absolute
  | url
  | bare
deriving DecidableEq, Repr

namespace Specifier

/-- Whether a location is a resource on the web. -/
def isUrl (location : String) : Bool :=
  "http://".isPrefixOf location || "https://".isPrefixOf location

def kind (specifier : String) : SpecifierKind :=
  if "./".isPrefixOf specifier then .relative
  else if "../".isPrefixOf specifier then .parentRelative
  else if "/".isPrefixOf specifier then .absolute
  else if isUrl specifier then .url
  else .bare

end Specifier

end Esm
