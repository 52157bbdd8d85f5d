-- SUMMARY: A started runtime and the running of entry modules.
import Esm.Startup.Basic

/-!
# Environments

An environment is a loader and the registry that it has filled, the built-in modules first. Running
an entry module loads it as the main module, links what it imports and evaluates it.
-/

namespace Esm

/-- A started runtime. -/
structure Environment where
  loader : Loader
  linking : Linking Loader.Requests

namespace Environment

/-- Start a runtime, with imports at most so many modules deep. -/
def startWithin (depth : Nat) (loader : Loader) (startup : Startup) (files : FileTree) :
    Option (Except LoadError Environment) :=
  match startup.addGlobalsWithin depth loader files ⟨.empty, []⟩ with
  | none => none
  | some (.error e, _) => some (.error e)
  | some (.ok _, s) =>
    match startup.addLibraryWithin depth loader files s with
    | none => none
    | some (.error e, _) => some (.error e)
    | some (.ok _, s) => some (.ok ⟨loader, s⟩)

/-- Start a runtime. -/
def start (loader : Loader) (startup : Startup) (files : FileTree) :
    Option (Except LoadError Environment) :=
  startWithin Startup.maxDepth loader startup files

def registry (env : Environment) : Registry := env.linking.registry

/-- Resolve a specifier without loading anything. -/
def resolve (env : Environment) (files : FileTree) (specifier referrer : String) : Resolution :=
  env.loader.resolve files specifier referrer

/-- The location of an entry module: the file that its path is probed to, or the path itself. -/
def entryLocation (files : FileTree) (path : String) : String :=
  (Location.probe files path).getD path

theorem entryLocation_of_find {files : FileTree} {path : String} {location : Location}
    {entry : FileTree.Entry} (found : files.find path = .ok (location, entry))
    (regular : entry.isRegular = true) : entryLocation files path = path := by
  unfold entryLocation
  rw [Location.probe_of_find found regular]
  rfl

/-- Load an entry module as the main module, link its imports, at most so many modules deep, and
evaluate it. -/
def runMainWithin (env : Environment) (depth : Nat) (files : FileTree) (path : String) :
    Option (Except LoadError Handle × Environment) :=
  let (result, r, requests) := env.loader.loadModule files (entryLocation files path) true
    env.linking.registry env.linking.host
  let s : Linking Loader.Requests := ⟨r, requests⟩
  match result with
  | .error e => some (.error e, { env with linking := s })
  | .ok h =>
    match Startup.answering h (s.evaluate (env.loader.host files) depth h) with
    | none => none
    | some (result, s) => some (result, { env with linking := s })

/-- Load an entry module as the main module, link its imports and evaluate it. -/
def runMain (env : Environment) (files : FileTree) (path : String) :
    Option (Except LoadError Handle × Environment) :=
  env.runMainWithin Startup.maxDepth files path

/-- The paths that may be looked at to run an entry module and to link the modules registered. -/
def consulted (env : Environment) (path : String) : List String :=
  Location.candidates path ++ env.registry.modules.flatMap fun m => env.loader.consulted m.module

end Environment

end Esm
