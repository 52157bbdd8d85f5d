-- SUMMARY: The directories that library modules are looked for in.
import Esm.Text.Split

/-!
# Library paths

The search path lists directories, separated by colons. White space around an entry does not count,
and an empty entry is skipped.
-/

namespace Esm.Library

open Text

/-- The directories that a search path lists, in order. -/
def roots (searchPath : String) : List String :=
  ((segments ':' searchPath.toList).map trim).filterMap fun entry =>
    if entry.isEmpty then none else some (String.ofList entry)

/-- The search path used where none is given. -/
def defaultSearchPath : String := "/usr/local/lib/tjs:/usr/lib/tjs"

/-- The directories for the search path that the environment gives, if it gives one. -/
def rootsOf (environment : Option String) : List String :=
  roots (environment.getD defaultSearchPath)

end Esm.Library
