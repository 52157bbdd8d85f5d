-- SUMMARY: Loading modules from their locations, and the host that links through it.
import Esm.Content.Load
import Esm.Location.Resolve
import Esm.Registry.Evaluate
import Esm.Stamp

/-!
# Loader

A loader finds library modules under its directories and fetches remote ones over its transport. To
load a location is to get its content, to compile that under the location as its name, and to stamp
the module. As a host it resolves each import to a location and loads that. Its state is the list of
addresses requested so far.
-/

namespace Esm

/-- Where a loader looks for modules. -/
structure Loader where
  roots : List String
  transport : Transport

namespace Loader

/-- The addresses requested so far. -/
abbrev Requests := List String

/-- The loader of a program that is told nothing. -/
def default : Loader := ⟨Library.roots Library.defaultSearchPath, .offline⟩

def resolve (loader : Loader) (files : FileTree) (specifier referrer : String) : Resolution :=
  Location.resolve files loader.roots specifier referrer

/-- Compile a source text and register it. -/
def compile (r : Registry) (source : SourceText) (name : String) :
    Except LoadError (Registry × Handle) :=
  (r.compile source.text name).mapError (LoadError.compile name)

/-- Compile and stamp the content of a location. A module that cannot be stamped stays
registered. -/
def accept (files : FileTree) (r : Registry) (location : String) (main : Bool)
    (content : Content) : Except LoadError Handle × Registry :=
  match content.kind with
  | .nativeAddon => (.error (.unsupported location "native addons cannot be compiled"), r)
  | kind =>
    match compile r content.source location with
    | .error e => (.error e, r)
    | .ok (r, h) =>
      match r.stamp files h location kind.isFile main with
      | .error e => (.error e, r)
      | .ok r => (.ok h, r)

/-- Load the module at a location. It is registered under the location and not linked. -/
def loadModule (loader : Loader) (files : FileTree) (location : String) (main : Bool)
    (r : Registry) (requests : Requests) : Except LoadError Handle × Registry × Requests :=
  let requests := requests ++ Content.requests location
  match Content.load files loader.transport location with
  | .error e => (.error e, r, requests)
  | .ok content =>
    let (result, r) := accept files r location main content
    (result, r, requests)

/-- The paths that may be looked at to link the requests of a module. -/
def consulted (loader : Loader) (m : Module) : List String :=
  m.interface.requests.flatMap fun request =>
    (Location.stems loader.roots request m.name).flatMap Location.candidates
      ++ [(Location.unprobed request m.name).location]

/-- The host that links modules of a file tree. -/
def host (loader : Loader) (files : FileTree) : Host Requests LoadError where
  ask requests base specifier := ((loader.resolve files specifier base).location, requests)
  load name r requests := loader.loadModule files name false r requests

end Loader

end Esm
