-- SUMMARY: Starting from source and from serialized modules differ by one evaluation only.
import Esm.Proofs.Encoding.Capacity
import Esm.Proofs.Loader.Provenance
import Esm.Proofs.Loader.Stamping
import Esm.Proofs.Registry.Records

/-!
# Modes

The built-in modules may be given as source or serialized. A runtime that starts from their sources
evaluates the standard library; one that starts from their serialized forms links it and stamps it
afterwards. If the one fails, so does the other, for the same cause; otherwise the first registry is
the second one once the library is evaluated. The same addresses are requested on the way.
-/

namespace Esm

namespace Startup

variable {loader : Loader} {files : FileTree} {depth : Nat}

/-- Bring in both built-in modules. -/
def bring (startup : Startup) (depth : Nat) (loader : Loader) (files : FileTree) : Outcome Handle :=
  match startup.addGlobalsWithin depth loader files ⟨.empty, []⟩ with
  | none => none
  | some (.error e, s) => some (.error e, s)
  | some (.ok _, s) => startup.addLibraryWithin depth loader files s

/-- To start is to bring in both built-in modules. -/
theorem startWithin_eq_bring (startup : Startup) (depth : Nat) (loader : Loader)
    (files : FileTree) : Environment.startWithin depth loader startup files =
      (startup.bring depth loader files).map fun o => o.1.map fun _ => ⟨loader, o.2⟩ := by
  unfold Environment.startWithin bring
  cases startup.addGlobalsWithin depth loader files ⟨.empty, []⟩ with
  | none => rfl
  | some outcome =>
    obtain ⟨result, s⟩ := outcome
    cases result with
    | error e => rfl
    | ok h =>
      dsimp only
      cases startup.addLibraryWithin depth loader files s with
      | none => rfl
      | some outcome =>
        obtain ⟨result, t⟩ := outcome
        cases result with
        | error e => rfl
        | ok k => rfl

-- ---------------------------------------------------------------------------
-- Built-in modules
-- ---------------------------------------------------------------------------

/-- The serialized form of a compiled module is brought in as that module. -/
theorem readBlob_encode {text name : String} {m : Module}
    (compiled : Module.compile text name = .ok m) (size : m.Encodable) (r : Registry) :
    readBlob (m.encode .native) name r = (.ok r.count, (r.register m).1) := by
  have read := Registry.read_written size (Registry.Made.compiled compiled).indexed .native r
  have found := Registry.get?_registered r m
  unfold readBlob
  rw [read]
  have handle : (r.register m).2 = r.count := rfl
  simp only [handle, found, Module.name_compile compiled, if_true]

-- ---------------------------------------------------------------------------
-- The standard library
-- ---------------------------------------------------------------------------

/-- The properties of the standard library, once it is stamped. -/
def stamped (properties : ImportMeta) : ImportMeta := properties.defineAll libraryStamp

/-- To stamp a registered module as the standard library is to change its properties. -/
theorem stampLibrary_eq {h : Handle} {s : Linking Loader.Requests} {m : Registered}
    (found : s.registry.get? h = some m) (next : Linking Loader.Requests → Outcome Handle) :
    stampLibrary files h s next = next (s.mapRegistry (·.restamp h stamped)) := by
  have stamp : s.registry.stamp files h libraryName false false =
      .ok (s.registry.restamp h stamped) :=
    Registry.stamp_eq_ok.2 ⟨_, m, Registry.stampOf_literal files libraryName false, found, rfl⟩
  unfold stampLibrary
  rw [stamp]
  rfl

/-- What the two ways of bringing in the standard library come to: nothing within the depth allowed,
or the same failure, or the same module, which is evaluated in the first case and is to be evaluated
in the second. -/
inductive Modes (loader : Loader) (files : FileTree) : Outcome Handle → Outcome Handle → Prop where
  | tooDeep : Modes loader files none none
  | failed {e : LoadError} {s t : Linking Loader.Requests} : s.host = t.host →
    Modes loader files (some (.error e, s)) (some (.error e, t))
  | started {h : Handle} {s t : Linking Loader.Requests} : s.host = t.host →
    t.registry.find? libraryName = some h →
    (∀ depth, Linking.evaluate (loader.host files) depth h t = some (.ok (), s)) →
    Modes loader files (some (.ok h, s)) (some (.ok h, t))

/-- A name that is registered is not loaded again, so that it means the same while something is
linked. -/
theorem find?_kept (loader : Loader) (files : FileTree) (name : String) (h : Handle) :
    Linking.Kept (loader.host files) fun r => r.find? name = some h := by
  refine ⟨?_, ?_, ?_⟩
  · intro other r requests absent found
    show (loader.loadModule files other false r requests).2.1.find? name = some h
    cases call : loader.loadModule files other false r requests with
    | mk result rest =>
      obtain ⟨r', requests'⟩ := rest
      have different : ∀ {m}, loader.Holds files other m → m.name ≠ name := by
        rintro m holds rfl
        rw [holds.name, absent] at found
        cases found
      cases Loader.loadModule_loads call with
      | refused _ => exact found
      | @left m _ holds _ _ =>
        exact (r.find?_register m name).trans ((if_neg (different holds)).trans found)
      | added holds _ =>
        exact (r.find?_add _ name).trans ((if_neg (different holds)).trans found)
  · exact fun _ _ _ found => found
  · exact fun _ _ _ found => found

/-- A module that has been linked and is stamped then is only marked when it is evaluated. -/
theorem evaluate_restamped {h : Handle} {s : Linking Loader.Requests} (past : s.Past h)
    (change : ImportMeta → ImportMeta) (depth : Nat) :
    Linking.evaluate (loader.host files) depth h (s.mapRegistry (·.restamp h change)) =
      some (.ok (), (s.mapRegistry (·.restamp h change)).mapRegistry (·.markEvaluated [h])) := by
  obtain ⟨m, found, past⟩ := past
  have found' : (s.registry.restamp h change).get? h =
      some { m with importMeta := change m.importMeta } := by
    unfold Registry.restamp
    rw [Registry.get?_update, if_pos rfl, found]
    rfl
  have linked : Linking.link (loader.host files) depth h (s.mapRegistry (·.restamp h change)) =
      some (.ok (), s.mapRegistry (·.restamp h change)) :=
    Linking.link_settled found' past
  unfold Linking.evaluate
  rw [linked]

/-- Stamping the library and evaluating it, or linking it before it is stamped. -/
theorem library_modes {h : Handle} {s : Linking Loader.Requests} {m : Registered}
    (found : s.registry.get? h = some m) (named : s.registry.find? libraryName = some h) :
    Modes loader files
      (answering h (Linking.evaluate (loader.host files) depth h
        (s.mapRegistry (·.restamp h stamped))))
      (match Linking.link (loader.host files) depth h s with
        | none => none
        | some (.error e, s) => some (.error (.ofLink e), s)
        | some (.ok (), s) => stampLibrary files h s fun s => some (.ok h, s)) := by
  -- Linking goes the same way with the stamp and without it, so that only its answer is left to
  -- look at. If that is a success, the library is past compiled: to evaluate it later links nothing.
  have alike : Linking.Alike (Loader.Restamped h stamped)
      (Linking.link (loader.host files) depth h s)
      (Linking.link (loader.host files) depth h (s.mapRegistry (·.restamp h stamped))) :=
    (Loader.restamped_simulates loader files h stamped).link ⟨Registry.get?_eq_some_lt found, rfl⟩
  unfold Linking.evaluate
  generalize call : Linking.link (loader.host files) depth h s = o,
    Linking.link (loader.host files) depth h (s.mapRegistry (·.restamp h stamped)) = o'
    at alike ⊢
  cases alike with
  | tooDeep => exact .tooDeep
  | @ended result t _ related =>
    obtain ⟨known, rfl⟩ := related
    cases result with
    | error e => exact .failed rfl
    | ok =>
      have links : Linking.Links (loader.host files) h s (.ok ()) t := ⟨depth, call⟩
      have past : t.Past h := links.past (Loader.host_enters loader files)
      have ⟨n, linked, _⟩ := past
      have kept : t.registry.find? libraryName = some h :=
        (find?_kept loader files libraryName h).link links named
      dsimp only
      rw [stampLibrary_eq linked]
      refine .started rfl ?_ (evaluate_restamped past stamped)
      exact (Registry.find?_restamp t.registry h stamped libraryName).trans kept

-- ---------------------------------------------------------------------------
-- Starting up
-- ---------------------------------------------------------------------------

/-- The two texts of the built-in modules. -/
def fromSource (bundle library : String) : Startup :=
  ⟨.source, Encoding.utf8 bundle, Encoding.utf8 library⟩

/-- The two built-in modules in their serialized form. -/
def serialized (bundle library : Module) : Startup :=
  ⟨.bytecode, bundle.encode .native, library.encode .native⟩

section

variable {bundle library : String} {bundle' library' : Module}
  (compiled : Module.compile bundle bundleName = .ok bundle')
  (compiled' : Module.compile library libraryName = .ok library')
  (noNul : '\x00' ∉ bundle.toList) (noNul' : '\x00' ∉ library.toList)
  (size : bundle'.Encodable) (size' : library'.Encodable)

include compiled noNul size in
/-- The bundle is the same module from either form. -/
theorem addGlobals_modes (s : Linking Loader.Requests) :
    (fromSource bundle library).addGlobalsWithin depth loader files s =
      (serialized bundle' library').addGlobalsWithin depth loader files s := by
  unfold addGlobalsWithin fromSource serialized
  dsimp only
  rw [compileBlob_utf8 compiled noNul, readBlob_encode compiled size]

include compiled' noNul' size' in
theorem addLibrary_modes (s : Linking Loader.Requests) :
    Modes loader files ((fromSource bundle library).addLibraryWithin depth loader files s)
      ((serialized bundle' library').addLibraryWithin depth loader files s) := by
  have found := Registry.get?_registered s.registry library'
  have named : (s.registry.register library').1.find? libraryName = some s.registry.count := by
    rw [Registry.find?_register, if_pos (Module.name_compile compiled')]
  unfold addLibraryWithin fromSource serialized
  dsimp only
  rw [compileBlob_utf8 compiled' noNul', readBlob_encode compiled' size']
  dsimp only
  rw [stampLibrary_eq found]
  exact library_modes found named

include compiled compiled' noNul noNul' size size' in
/-- Bringing in both built-in modules comes to the same from either form, up to the evaluation of
the library. -/
theorem bring_modes :
    Modes loader files ((fromSource bundle library).bring depth loader files)
      ((serialized bundle' library').bring depth loader files) := by
  unfold bring
  rw [addGlobals_modes compiled noNul size]
  cases (serialized bundle' library').addGlobalsWithin depth loader files ⟨.empty, []⟩ with
  | none => exact .tooDeep
  | some outcome =>
    obtain ⟨result, s⟩ := outcome
    cases result with
    | error e => exact .failed rfl
    | ok h => exact addLibrary_modes compiled' noNul' size' s

end

/-- The addresses that are requested while a runtime starts, also if it fails to. -/
def requested (startup : Startup) (depth : Nat) (loader : Loader) (files : FileTree) :
    Option Loader.Requests :=
  (startup.bring depth loader files).map fun o => o.2.host

end Startup

namespace Environment

open Startup

/-- Two starts of a runtime that come to the same, up to the evaluation of the library: neither ends
within the depth allowed, or both fail alike, or the second runtime becomes the first one when its
library is evaluated. -/
inductive SameStart (files : FileTree) :
    Option (Except LoadError Environment) → Option (Except LoadError Environment) → Prop where
  | tooDeep : SameStart files none none
  | failed (e : LoadError) : SameStart files (some (.error e)) (some (.error e))
  | started {env env' : Environment} {h : Handle} : env.loader = env'.loader →
    env'.registry.find? libraryName = some h →
    (∀ depth, env'.linking.evaluate (env'.loader.host files) depth h =
      some (.ok (), env.linking)) →
    SameStart files (some (.ok env)) (some (.ok env'))

theorem sameStart_of_modes {loader : Loader} {files : FileTree} {depth : Nat}
    {startup startup' : Startup}
    (modes : Modes loader files (startup.bring depth loader files)
      (startup'.bring depth loader files)) :
    SameStart files (startWithin depth loader startup files)
        (startWithin depth loader startup' files) ∧
      startup.requested depth loader files = startup'.requested depth loader files := by
  unfold requested
  rw [startWithin_eq_bring, startWithin_eq_bring]
  generalize startup.bring depth loader files = o, startup'.bring depth loader files = o'
    at modes ⊢
  cases modes with
  | tooDeep => exact ⟨.tooDeep, rfl⟩
  | @failed e s t requests => exact ⟨.failed e, congrArg some requests⟩
  | started requests named evaluated =>
    exact ⟨.started rfl named evaluated, congrArg some requests⟩

/-- To start from the sources of the built-in modules and to start from what they compile to, in the
serialized form, comes to the same up to the evaluation of the library, and the same addresses are
requested in the same order. A module that is too large for the format has no serialized form. -/
theorem start_modes {bundle library : String} {bundle' library' : Module} (depth : Nat)
    (loader : Loader) (files : FileTree) (compiled : Module.compile bundle bundleName = .ok bundle')
    (compiled' : Module.compile library libraryName = .ok library')
    (noNul : '\x00' ∉ bundle.toList) (noNul' : '\x00' ∉ library.toList)
    (size : bundle'.Encodable) (size' : library'.Encodable) :
    SameStart files (startWithin depth loader (fromSource bundle library) files)
        (startWithin depth loader (serialized bundle' library') files) ∧
      (fromSource bundle library).requested depth loader files =
        (serialized bundle' library').requested depth loader files :=
  sameStart_of_modes (bring_modes compiled compiled' noNul noNul' size size')

/-- No source of less than four gigabytes compiles to a module that is too large for the format. -/
theorem sameStart_of_size {bundle library : String} {bundle' library' : Module} (depth : Nat)
    (loader : Loader) (files : FileTree) (compiled : Module.compile bundle bundleName = .ok bundle')
    (compiled' : Module.compile library libraryName = .ok library')
    (noNul : '\x00' ∉ bundle.toList) (noNul' : '\x00' ∉ library.toList)
    (size : bundle.utf8ByteSize < UInt32.size) (size' : library.utf8ByteSize < UInt32.size) :
    SameStart files (startWithin depth loader (fromSource bundle library) files)
        (startWithin depth loader (serialized bundle' library') files) ∧
      (fromSource bundle library).requested depth loader files =
        (serialized bundle' library').requested depth loader files :=
  sameStart_of_modes (bring_modes compiled compiled' noNul noNul'
    (Module.encodable_of_compile compiled size (by decide))
    (Module.encodable_of_compile compiled' size' (by decide)))

-- ---------------------------------------------------------------------------
-- A library that imports itself
-- ---------------------------------------------------------------------------

/-- An empty bundle. -/
def emptyBundle : Module := ⟨bundleName, .empty, ⟨[], []⟩⟩

/-- A library that imports itself. -/
def cyclicLibrary : Module :=
  ⟨libraryName, ⟨["@tjs/std"], [], []⟩,
    ⟨["import", "'@tjs/std'"], [⟨.identifier, 0⟩, ⟨.string, 1⟩]⟩⟩

/-- The evaluated empty bundle and the cyclic library. -/
def withCyclicLibrary (status : Status) (dependencies : List Handle) : Linking Loader.Requests :=
  ⟨⟨[⟨emptyBundle, .evaluated, [], []⟩, ⟨cyclicLibrary, status, dependencies, libraryStamp⟩],
    [(bundleName, 0), (libraryName, 1)]⟩, []⟩

private theorem compile_cyclicLibrary :
    Module.compile "import'@tjs/std'" libraryName = .ok cyclicLibrary := by
  have source : Scanner.ofSource "import'@tjs/std'" =
      ⟨"import".toList ++ '\'' :: ("@tjs/std".toList ++ '\'' :: []), 0, none⟩ := rfl
  have tokens : tokenize "import'@tjs/std'" =
      .ok [⟨.identifier, 0, "import"⟩, ⟨.string, 6, "'@tjs/std'"⟩] := by
    unfold tokenize
    rw [source, Scanner.tokens_of_next (Scanner.next_import (by decide) _ _ _),
      Scanner.tokens_of_next (Scanner.next_string (by decide) _ _ _), Scanner.tokens_nil]
    rfl
  exact Module.compile_eq_ok.2 ⟨_, _, tokens, Interface.eq_ok_of_toOption (by decide +kernel), rfl⟩

private theorem normalize_cyclicLibrary :
    (Loader.host ⟨[], .offline⟩ .bare).normalize [] libraryName "@tjs/std" = libraryName := by
  have kind : Specifier.kind "@tjs/std" = .bare := by decide +kernel
  have stems : Location.stems [] "@tjs/std" libraryName = [] := by
    unfold Location.stems
    rw [kind]
    rfl
  show (Location.resolve .bare [] "@tjs/std" libraryName).location = libraryName
  unfold Location.resolve Location.unprobed
  rw [stems, kind]
  rfl

private theorem link_cyclicLibrary (depth : Nat) :
    Linking.link (Loader.host ⟨[], .offline⟩ .bare) (depth + 1) 1 (withCyclicLibrary .compiled []) =
      some (.ok (), withCyclicLibrary .linked [1]) := by
  let host := Loader.host ⟨[], .offline⟩ .bare
  let s := withCyclicLibrary .linking []
  have required : Linking.require host libraryName "@tjs/std" s = (.ok 1, s) :=
    Linking.require_registered (Prod.ext normalize_cyclicLibrary rfl) (by rfl)
  have settled : Linking.link host depth 1 s = some (.ok (), s) :=
    Linking.link_settled (m := ⟨cyclicLibrary, .linking, [], libraryStamp⟩) rfl nofun
  exact Linking.link_done (m := ⟨cyclicLibrary, .compiled, [], libraryStamp⟩) rfl rfl
    (Linking.linkRequests_cons required settled rfl)

private theorem startWithin_cyclicLibrary (depth : Nat) :
    startWithin (depth + 1) ⟨[], .offline⟩ (fromSource "" "import'@tjs/std'") .bare =
      some (.ok ⟨⟨[], .offline⟩, withCyclicLibrary .evaluated [1]⟩) := by
  let before : Registry := ⟨[⟨emptyBundle, .evaluated, [], []⟩], [(bundleName, 0)]⟩
  have globals : (fromSource "" "import'@tjs/std'").addGlobalsWithin (depth + 1) ⟨[], .offline⟩ .bare
      ⟨.empty, []⟩ = some (.ok 0, ⟨before, []⟩) := by
    unfold addGlobalsWithin fromSource
    dsimp only
    rw [compileBlob_utf8 (Module.compile_empty bundleName) (by decide)]
    have evaluated : Linking.evaluate (Loader.host ⟨[], .offline⟩ .bare) (depth + 1) 0
        ⟨(Registry.empty.register emptyBundle).1, []⟩ = _ :=
      Linking.evaluate_leaf depth rfl rfl rfl
    exact congrArg (answering 0) evaluated
  have builtin : (fromSource "" "import'@tjs/std'").addLibraryWithin (depth + 1) ⟨[], .offline⟩ .bare
      ⟨before, []⟩ = some (.ok 1, withCyclicLibrary .evaluated [1]) := by
    unfold addLibraryWithin fromSource
    dsimp only
    rw [compileBlob_utf8 compile_cyclicLibrary (by decide)]
    dsimp only
    rw [stampLibrary_eq (m := ⟨cyclicLibrary, .compiled, [], []⟩) rfl]
    show answering 1 (Linking.evaluate (Loader.host ⟨[], .offline⟩ .bare) (depth + 1) 1
      (withCyclicLibrary .compiled [])) = some (.ok 1, withCyclicLibrary .evaluated [1])
    unfold Linking.evaluate
    let linked := withCyclicLibrary .linked [1]
    have marks : linked.registry.markEvaluated [1] = _ :=
      (Registry.markEvaluated_enter rfl (by decide) []).trans
        ((Registry.markEvaluated_skip rfl rfl []).trans (Registry.markEvaluated_nil _))
    rw [link_cyclicLibrary]
    simp only [Linking.mapRegistry, linked, marks]
    rfl
  unfold startWithin
  simp only [globals, builtin]

/-- The bundle is empty, and the library imports itself. -/
theorem start_modes_cycle :
    Module.compile "" bundleName = .ok emptyBundle ∧
      Module.compile "import'@tjs/std'" libraryName = .ok cyclicLibrary ∧
      emptyBundle.Encodable ∧ cyclicLibrary.Encodable ∧
      start ⟨[], .offline⟩ (fromSource "" "import'@tjs/std'") .bare =
        some (.ok ⟨⟨[], .offline⟩, withCyclicLibrary .evaluated [1]⟩) ∧
      SameStart .bare (start ⟨[], .offline⟩ (fromSource "" "import'@tjs/std'") .bare)
        (start ⟨[], .offline⟩ (serialized emptyBundle cyclicLibrary) .bare) ∧
      (fromSource "" "import'@tjs/std'").requested maxDepth ⟨[], .offline⟩ .bare =
        (serialized emptyBundle cyclicLibrary).requested maxDepth ⟨[], .offline⟩ .bare := by
  have compiled : Module.compile "" bundleName = .ok emptyBundle := Module.compile_empty bundleName
  have size : emptyBundle.Encodable := Module.encodable_of_compile compiled (by decide) (by decide)
  have size' : cyclicLibrary.Encodable :=
    Module.encodable_of_compile compile_cyclicLibrary (by decide) (by decide)
  exact ⟨compiled, compile_cyclicLibrary, size, size', startWithin_cyclicLibrary 9999,
    start_modes _ _ _ compiled compile_cyclicLibrary (by decide) (by decide) size size'⟩

end Environment

end Esm
