-- SUMMARY: Bringing the built-in modules into a registry.
import Esm.Loader
import Esm.Startup.Builtin

/-!
# Startup

A runtime starts from two modules, the bundle and the standard library, which are given as source or
serialized. The bundle is evaluated. The library is evaluated too if it comes as source, and only
linked if it comes serialized.
-/

namespace Esm

namespace Startup

/-- How the built-in modules are given. -/
inductive Mode where
  | bytecode
  | source
deriving DecidableEq, Repr

def Mode.name : Mode → String
  | .bytecode => "Bytecode"
  | .source => "Source"

end Startup

/-- The built-in modules to start from. -/
structure Startup where
  mode : Startup.Mode
  bundle : List UInt8
  library : List UInt8

namespace Startup

/-- The modules built into the program. -/
def embedded : Startup := ⟨.source, Encoding.utf8 bundleSource, Encoding.utf8 librarySource⟩

/-- How many modules deep imports may nest in the programs. -/
def maxDepth : Nat := 10000

/-- A step of starting up, if the depth allowed suffices. -/
abbrev Outcome (α : Type) := Option (Except LoadError α × Linking Loader.Requests)

/-- Read a serialized built-in module, which has to hold the module of its name. One of another name
stays registered. -/
def readBlob (blob : List UInt8) (name : String) (r : Registry) :
    Except LoadError Handle × Registry :=
  match r.read .native blob with
  | .error fault => (.error (.bytecode name (.malformed fault)), r)
  | .ok (r, h) =>
    match r.get? h with
    | none => (.error (.unknownHandle h), r)
    | some m =>
      if m.module.name = name then (.ok h, r)
      else (.error (.bytecode name (.otherModule m.module.name)), r)

/-- The source text of a built-in module. -/
def sourceBlob (blob : List UInt8) (name : String) : Except LoadError SourceText :=
  match Encoding.ofUtf8? blob with
  | none => .error (.invalidSource name "not valid UTF-8")
  | some text =>
    match SourceText.ofString? text with
    | none => .error (.invalidSource name "contains a NUL byte")
    | some source => .ok source

/-- Compile a built-in module that is given as source. -/
def compileBlob (blob : List UInt8) (name : String) (r : Registry) :
    Except LoadError Handle × Registry :=
  match sourceBlob blob name with
  | .error e => (.error e, r)
  | .ok source =>
    match Loader.compile r source name with
    | .error e => (.error e, r)
    | .ok (r, h) => (.ok h, r)

/-- Answer with a handle once an operation on it has succeeded. -/
def answering (h : Handle) :
    Esm.Outcome Loader.Requests LoadError Unit → Outcome Handle
  | none => none
  | some (.error e, s) => some (.error (.ofLink e), s)
  | some (.ok (), s) => some (.ok h, s)

/-- Stamp the standard library, which has no file, and go on. -/
def stampLibrary (files : FileTree) (h : Handle) (s : Linking Loader.Requests)
    (next : Linking Loader.Requests → Outcome Handle) : Outcome Handle :=
  match s.registry.stamp files h libraryName false false with
  | .error e => some (.error e, s)
  | .ok r => next { s with registry := r }

/-- Bring in the bundle and evaluate it, with imports at most so many modules deep. -/
def addGlobalsWithin (startup : Startup) (depth : Nat) (loader : Loader) (files : FileTree)
    (s : Linking Loader.Requests) : Outcome Handle :=
  let (result, r) :=
    match startup.mode with
    | .bytecode => readBlob startup.bundle bundleName s.registry
    | .source => compileBlob startup.bundle bundleName s.registry
  let s := { s with registry := r }
  match result with
  | .error e => some (.error e, s)
  | .ok h => answering h (s.evaluate (loader.host files) depth h)

/-- Bring in the standard library, with imports at most so many modules deep. -/
def addLibraryWithin (startup : Startup) (depth : Nat) (loader : Loader) (files : FileTree)
    (s : Linking Loader.Requests) : Outcome Handle :=
  match startup.mode with
  | .bytecode =>
    let (result, r) := readBlob startup.library libraryName s.registry
    let s := { s with registry := r }
    match result with
    | .error e => some (.error e, s)
    | .ok h =>
      match s.link (loader.host files) depth h with
      | none => none
      | some (.error e, s) => some (.error (.ofLink e), s)
      | some (.ok (), s) => stampLibrary files h s fun s => some (.ok h, s)
  | .source =>
    let (result, r) := compileBlob startup.library libraryName s.registry
    let s := { s with registry := r }
    match result with
    | .error e => some (.error e, s)
    | .ok h =>
      stampLibrary files h s fun s => answering h (s.evaluate (loader.host files) depth h)

def addGlobals (startup : Startup) (loader : Loader) (files : FileTree)
    (s : Linking Loader.Requests) : Outcome Handle :=
  startup.addGlobalsWithin maxDepth loader files s

def addLibrary (startup : Startup) (loader : Loader) (files : FileTree)
    (s : Linking Loader.Requests) : Outcome Handle :=
  startup.addLibraryWithin maxDepth loader files s

end Startup

end Esm
