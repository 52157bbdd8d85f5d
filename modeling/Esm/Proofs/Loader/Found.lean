-- SUMMARY: A location that probing finds is a file for the loader too, and what loading it comes to is told by the file.
import Mathlib.Data.List.Basic
import Esm.Proofs.Loader.Atomicity
import Esm.Proofs.Location.Search

/-!
# Found files

Probing hands over a text. The loader has to tell from that text alone what the location holds, and it
follows it again to read the file, and once more to stamp the module. A text that probing finds is no
address on the web, whatever the directories of a library are called, since what comes before its first
slash has no colon in it. So the loader meets the file that probing met, and what is at fault then is
the file: its name, its bytes, that it may not be opened, or that it has no real path. Main statement:
`loadModule_of_probed`.
-/

namespace Esm

open Esm.Path

-- ---------------------------------------------------------------------------
-- Paths to files
-- ---------------------------------------------------------------------------

namespace FileTree

variable {files : FileTree} {path : String} {location : Location} {entry : Entry}

end FileTree

-- ---------------------------------------------------------------------------
-- Paths and addresses
-- ---------------------------------------------------------------------------

namespace Location

variable {files : FileTree} {specifier referrer path : String}

end Location

-- ---------------------------------------------------------------------------
-- Loading
-- ---------------------------------------------------------------------------

namespace Loader

open Registry

variable {files : FileTree} {path : String} {location : Location} {entry : FileTree.Entry}

/-- What a path to a file holds that is no addon and whose text cannot be had. -/
theorem compiledAt_unread (offWeb : Specifier.isUrl path = false)
    (script : extension path ≠ some "so") {e : LoadError}
    (unread : Content.readText files path = .error e) (loader : Loader) :
    loader.compiledAt files path = .error e := by
  have texts := (textOf_file offWeb script files loader.transport).2
  unfold compiledAt Content.load
  simp only [texts, unread, Except.map, bind, Except.bind]

end Loader

end Esm
