-- SUMMARY: What a location holds does not depend on what is registered, and neither does the error of loading it.
import Esm.Proofs.Loader.Bare
import Esm.Proofs.Registry.FirstFailure
import Esm.Proofs.Registry.Leftover

/-!
# Locations

A location holds a module that can be stamped, or there is a reason why it cannot be loaded. Which of
the two it is, and the module or the reason, are told by the files and by the web alone. As a host, a
loader gives the one or the other whenever it is asked. The reason also tells whether a module is left
behind: if it is that a file has no real path, the module of this file is.
-/

namespace Esm

namespace Loader

open Registry

variable {loader : Loader} {files : FileTree} {location : String} {m : Module} {e : LoadError}

/-- What an import means. -/
def names (loader : Loader) (files : FileTree) (base specifier : String) : String :=
  (loader.resolve files specifier base).location

/-- The module that a location holds, or the reason why it cannot be loaded. -/
def moduleAt (loader : Loader) (files : FileTree) (location : String) : Except LoadError Module :=
  match loader.compiledAt files location with
  | .error e => .error e
  | .ok m =>
    if Specifier.isUrl location then .ok m
    else
      match files.realPath location with
      | .error cause => .error (.realPath location cause)
      | .ok _ => .ok m

theorem moduleAt_eq_ok : loader.moduleAt files location = .ok m ↔
    loader.Holds files location m ∧
      (Specifier.isUrl location = false → ∃ real, files.realPath location = .ok real) := by
  rw [← compiledAt_eq_ok]
  unfold moduleAt
  cases loader.compiledAt files location with
  | error e => simp
  | ok n =>
    cases Specifier.isUrl location with
    | true => simp
    | false =>
      cases files.realPath location with
      | error cause => simp
      | ok real => simp

theorem moduleAt_eq_error : loader.moduleAt files location = .error e ↔
    loader.compiledAt files location = .error e ∨
      ∃ m cause, loader.Holds files location m ∧ Specifier.isUrl location = false ∧
        files.realPath location = .error cause ∧ e = .realPath location cause := by
  simp only [← compiledAt_eq_ok]
  unfold moduleAt
  cases loader.compiledAt files location with
  | error e => simp
  | ok n =>
    cases Specifier.isUrl location with
    | true => simp
    | false =>
      cases files.realPath location with
      | error cause => simp [eq_comm]
      | ok real => simp

/-- The module of a location can be stamped, as the main module or as another. -/
theorem stamped_of_moduleAt (has : loader.moduleAt files location = .ok m) (main : Bool) :
    ∃ properties,
      stampOf files location (ContentKind.ofLocation location).isFile main = .ok properties := by
  rw [ContentKind.isFile_ofLocation]
  cases web : Specifier.isUrl location with
  | true => exact ⟨_, stampOf_literal files location main⟩
  | false =>
    obtain ⟨real, path⟩ := (moduleAt_eq_ok.1 has).2 web
    rw [Bool.not_false, stampOf_real, path]
    exact ⟨_, rfl⟩

/-- A location that holds a module is loaded, whatever is registered. -/
theorem loadModule_of_moduleAt (has : loader.moduleAt files location = .ok m) (main : Bool)
    (r : Registry) (requests : Requests) :
    ∃ properties, loader.loadModule files location main r requests =
      (.ok r.count, r.add ⟨m, .compiled, [], properties⟩,
        requests ++ Content.requests location) := by
  obtain ⟨properties, stamped⟩ := stamped_of_moduleAt has main
  exact ⟨properties, loadModule_added (moduleAt_eq_ok.1 has).1 stamped r requests⟩

-- ---------------------------------------------------------------------------
-- Errors
-- ---------------------------------------------------------------------------

/-- The module that is left behind by a load with this error. -/
def leftBy (loader : Loader) (files : FileTree) : LoadError → Option Module
  | .realPath location _ => (loader.compiledAt files location).toOption
  | _ => none

theorem leftBy_ofFile (loader : Loader) (files : FileTree) (path : String) (cause : FileError) :
    loader.leftBy files (.ofFile path cause) = none := by
  cases cause <;> rfl

theorem leftBy_readText (loader : Loader) {path : String}
    (refused : Content.readText files path = .error e) : loader.leftBy files e = none := by
  unfold Content.readText at refused
  cases read : files.read path with
  | error cause =>
    rw [read] at refused
    cases refused
    exact leftBy_ofFile loader files path cause
  | ok bytes =>
    simp only [read, Interface.mapError_ok, bind, Except.bind] at refused
    split at refused
    · cases refused
    · cases refused
      rfl

theorem leftBy_fetchText (loader : Loader) (files : FileTree) {transport : Transport} {url : String}
    (refused : Content.fetchText transport url = .error e) : loader.leftBy files e = none := by
  unfold Content.fetchText at refused
  cases fetched : transport.fetch url with
  | error failure =>
    rw [fetched] at refused
    cases refused
    rfl
  | ok answer =>
    simp only [fetched, Interface.mapError_ok, bind, Except.bind] at refused
    split at refused
    · cases refused
      rfl
    · split at refused
      · cases refused
      · cases refused
        rfl

theorem leftBy_textOf (loader : Loader) {transport : Transport} {kind : ContentKind}
    (refused : Content.textOf files transport location kind = .error e) :
    loader.leftBy files e = none := by
  cases kind with
  | remoteScript => exact leftBy_fetchText loader files refused
  | nativeAddon =>
    unfold Content.textOf at refused
    cases checked : files.check location with
    | error cause =>
      rw [checked] at refused
      cases refused
      exact leftBy_ofFile loader files location cause
    | ok =>
      rw [checked] at refused
      cases refused
  | json =>
    unfold Content.textOf at refused
    cases read : Content.readText files location with
    | error cause =>
      rw [read] at refused
      cases refused
      exact leftBy_readText loader read
    | ok text =>
      rw [read] at refused
      cases refused
  | script => exact leftBy_readText loader refused

/-- Content that cannot be had is not compiled. -/
theorem leftBy_load (loader : Loader) {transport : Transport}
    (refused : Content.load files transport location = .error e) :
    loader.leftBy files e = none := by
  unfold Content.load at refused
  dsimp only at refused
  cases had : Content.textOf files transport location (.ofLocation location) with
  | error cause =>
    rw [had] at refused
    cases refused
    exact leftBy_textOf loader had
  | ok text =>
    simp only [had, bind, Except.bind] at refused
    split at refused
    · cases refused
    · cases refused
      rfl

/-- Nothing is left behind where there is no module. -/
theorem leftBy_compiledAt (refused : loader.compiledAt files location = .error e) :
    loader.leftBy files e = none := by
  obtain unread | ⟨content, -, ⟨-, rfl⟩ | ⟨-, cause, -, rfl⟩⟩ := compiledAt_eq_error.1 refused
  · exact leftBy_load loader unread
  · rfl
  · rfl

theorem leftBy_realPath (holds : loader.Holds files location m) (cause : FileError) :
    loader.leftBy files (.realPath location cause) = some m := by
  unfold leftBy
  simp only [compiledAt_eq_ok.2 holds]
  rfl

/-- The error of loading a location does not depend on what is registered, and tells what is left
behind. -/
theorem loadModule_of_moduleAt_eq_error (refused : loader.moduleAt files location = .error e)
    (main : Bool) (r : Registry) (requests : Requests) :
    loader.loadModule files location main r requests =
      (.error e, r.leaving (loader.leftBy files e), requests ++ Content.requests location) := by
  obtain absent | ⟨m, cause, holds, file, path, rfl⟩ := moduleAt_eq_error.1 refused
  · rw [leftBy_compiledAt absent]
    exact loadModule_refused absent main r requests
  · rw [leftBy_realPath holds]
    exact loadModule_left holds file path main r requests

/-- A module is left behind only by a file that has no real path. -/
theorem leftBy_moduleAt (refused : loader.moduleAt files location = .error e) (m : Module)
    (left : loader.leftBy files e = some m) : loader.Holds files location m ∧
      ∃ cause, files.realPath location = .error cause ∧ e = .realPath location cause := by
  obtain absent | ⟨m', cause, holds, -, path, rfl⟩ := moduleAt_eq_error.1 refused
  · rw [leftBy_compiledAt absent] at left
    cases left
  · rw [leftBy_realPath holds] at left
    cases left
    exact ⟨holds, cause, path, rfl⟩

-- ---------------------------------------------------------------------------
-- The host
-- ---------------------------------------------------------------------------

theorem host_leaves (loader : Loader) (files : FileTree) :
    (loader.host files).Leaves (loader.leftBy files) := by
  refine ⟨fun {name r state cause r' state'} load => ?_, fun {name r state h r' state'} load => ?_⟩
  · have call : loader.loadModule files name false r state = (.error cause, r', state') := load
    cases loadModule_loads call with
    | refused refused =>
      rw [leftBy_compiledAt refused]
      rfl
    | left holds file path =>
      rw [leftBy_realPath holds]
      rfl
  · have call : loader.loadModule files name false r state = (.ok h, r', state') := load
    cases loadModule_loads call with
    | @added m properties _ _ =>
      rw [Adds.count (m := ⟨m, .compiled, [], properties⟩) rfl]
      exact Nat.le_add_right _ _

/-- Apart from the module that it may leave behind, a loader gives what the locations hold. -/
theorem host_serves (loader : Loader) (files : FileTree) :
    (loader.host files).atomic.Serves (loader.names files) (loader.moduleAt files)
      fun requests location => requests ++ Content.requests location := by
  have calls : ∀ name r requests, (loader.host files).load name r requests =
      loader.loadModule files name false r requests := fun _ _ _ => rfl
  refine ⟨fun _ _ _ => rfl, fun has => (moduleAt_eq_ok.1 has).1.name,
    fun {name e} refused r state => ?_, fun {name m} has r state => ?_⟩
  · unfold Host.atomic
    simp only [calls, loadModule_of_moduleAt_eq_error refused]
  · obtain ⟨properties, load⟩ := loadModule_of_moduleAt has false r state
    refine ⟨properties, _, rfl, ?_⟩
    unfold Host.atomic
    simp only [calls, load]

end Loader

end Esm
