-- SUMMARY: What loading a location comes to: a refusal, a module with its stamp, or one left without.
import Esm.Loader
import Esm.Proofs.Registry.Run

/-!
# Loading

To load a location changes nothing that is registered. What it comes to is told by the files and by
the web alone: the content of the location is refused, and nothing is added; or one module is added,
which has the location as its name and the stamp of that location as its properties. A module is
registered before it is stamped, and the stamp of a file asks for its real path. If that is refused,
the module stays registered, without any properties. Main statement: `loadModule_eq`.
-/

namespace Esm

-- ---------------------------------------------------------------------------
-- Stamps
-- ---------------------------------------------------------------------------

/-- Define properties one after the other. -/
def ImportMeta.defineAll (properties more : ImportMeta) : ImportMeta :=
  more.foldl (fun properties p => properties.define p.1 p.2) properties

namespace Registry

theorem foldl_define (r : Registry) (h : Handle) (properties : ImportMeta) :
    properties.foldl (fun r p => r.define h p.1 p.2) r =
      r.update h fun m => { m with importMeta := m.importMeta.defineAll properties } := by
  induction properties generalizing r with
  | nil =>
    unfold Registry.update ImportMeta.defineAll
    exact congrArg (Registry.mk · r.index) (List.modify_id h r.modules).symm
  | cons p properties ih =>
    rw [List.foldl_cons, ih]
    unfold Registry.define Registry.update
    rw [List.modify_modify_eq]
    rfl

/-- A module is found after a change that leaves its properties alone only if it was there with
these properties. -/
theorem get?_of_update {r : Registry} {h k : Handle} {change : Registered → Registered}
    (module : ∀ m, (change m).module = m.module)
    (importMeta : ∀ m, (change m).importMeta = m.importMeta) {m' : Registered}
    (after : (r.update h change).get? k = some m') :
    ∃ m, r.get? k = some m ∧ m.module = m'.module ∧ m.importMeta = m'.importMeta := by
  rw [get?_update] at after
  split at after
  · obtain ⟨m, found, rfl⟩ := Option.map_eq_some_iff.1 after
    exact ⟨m, found, (module m).symm, (importMeta m).symm⟩
  · exact ⟨m', after, rfl, rfl⟩

/-- A stamp of a module is a change of its properties. -/
theorem stamp_eq_ok {r r' : Registry} {files : FileTree} {h : Handle} {location : String}
    {real main : Bool} : r.stamp files h location real main = .ok r' ↔
      ∃ properties m, stampOf files location real main = .ok properties ∧ r.get? h = some m ∧
        r' = r.update h fun m => { m with importMeta := m.importMeta.defineAll properties } := by
  unfold Registry.stamp
  constructor
  · intro call
    cases hstamp : stampOf files location real main with
    | error e =>
      rw [hstamp] at call
      cases call
    | ok properties =>
      rw [hstamp] at call
      cases found : r.get? h with
      | none =>
        simp only [found, bind, Except.bind] at call
        cases call
      | some m =>
        simp only [found, bind, Except.bind] at call
        cases call
        exact ⟨properties, m, rfl, rfl, foldl_define r h properties⟩
  · rintro ⟨properties, m, hstamp, found, rfl⟩
    rw [hstamp]
    simp only [found, bind, Except.bind, foldl_define]

/-- The properties of a location that is not real. -/
theorem stampOf_literal (files : FileTree) (location : String) (main : Bool) :
    stampOf files location false main = .ok [("url", .text location), ("main", .flag main)] := rfl

/-- The properties of a location that is real. -/
theorem stampOf_real (files : FileTree) (location : String) (main : Bool) :
    stampOf files location true main =
      match files.realPath location with
      | .error cause => .error (.realPath location cause)
      | .ok real =>
        .ok [("url", .text ("file://" ++ real)), ("main", .flag main),
          ("dirname", .text (splitPath real).1), ("basename", .text (splitPath real).2)] := by
  unfold stampOf
  rw [if_pos rfl]
  cases files.realPath location with
  | error cause => rfl
  | ok real => rfl

theorem stampOf_real_eq_ok {files : FileTree} {location : String} {main : Bool}
    {properties : ImportMeta} (h : stampOf files location true main = .ok properties) :
    ∃ real, files.realPath location = .ok real ∧
      properties = [("url", .text ("file://" ++ real)), ("main", .flag main),
        ("dirname", .text (splitPath real).1), ("basename", .text (splitPath real).2)] := by
  rw [stampOf_real] at h
  cases path : files.realPath location with
  | error e =>
    rw [path] at h
    cases h
  | ok real =>
    rw [path] at h
    cases h
    exact ⟨real, rfl, rfl⟩

/-- A stamp is refused only for want of a real path. -/
theorem stampOf_eq_error {files : FileTree} {location : String} {real main : Bool} {e : LoadError} :
    stampOf files location real main = .error e ↔
      real = true ∧ ∃ cause, files.realPath location = .error cause ∧
        e = .realPath location cause := by
  cases real with
  | false => simp [stampOf_literal]
  | true =>
    rw [stampOf_real]
    cases files.realPath location with
    | error cause => simp [eq_comm]
    | ok path => simp

/-- A stamp is the whole of the properties of a module that had none. -/
theorem defineAll_stampOf {files : FileTree} {location : String} {real main : Bool}
    {properties : ImportMeta} (h : stampOf files location real main = .ok properties) :
    ImportMeta.defineAll [] properties = properties := by
  cases real with
  | false =>
    rw [stampOf_literal] at h
    cases h
    rfl
  | true =>
    obtain ⟨path, -, rfl⟩ := stampOf_real_eq_ok h
    rfl

-- ---------------------------------------------------------------------------
-- Loading
-- ---------------------------------------------------------------------------

theorem Adds.stamp {r r' r'' : Registry} {m : Module} (adds : r.Adds ⟨m, .compiled, [], []⟩ r')
    {files : FileTree} {location : String} {real main : Bool}
    (call : r'.stamp files r.count location real main = .ok r'') :
    ∃ properties, stampOf files location real main = .ok properties ∧
      r.Adds ⟨m, .compiled, [], properties⟩ r'' := by
  obtain ⟨properties, _, hstamp, -, rfl⟩ := stamp_eq_ok.1 call
  refine ⟨properties, hstamp, ?_⟩
  rw [show r' = _ from adds, update_add r _ rfl]
  unfold Adds
  dsimp only
  rw [defineAll_stampOf hstamp]

end Registry

theorem ContentKind.isFile_ofLocation (location : String) :
    (ofLocation location).isFile = !Specifier.isUrl location := by
  unfold ofLocation
  cases Specifier.isUrl location with
  | true => rfl
  | false =>
    simp only [Bool.false_eq_true, if_false]
    split <;> rfl

namespace Loader

open Registry

/-- A location holds the module that its content is compiled to. An addon is not compiled. -/
def Holds (loader : Loader) (files : FileTree) (location : String) (m : Module) : Prop :=
  ∃ content, Content.load files loader.transport location = .ok content ∧
    content.kind ≠ .nativeAddon ∧ Module.compile content.source.text location = .ok m

theorem Holds.name {loader : Loader} {files : FileTree} {location : String} {m : Module}
    (holds : loader.Holds files location m) : m.name = location := by
  obtain ⟨content, -, -, compiled⟩ := holds
  exact Module.name_compile compiled

/-- Compiling a source text registers the module that it is compiled to. -/
theorem compile_eq_ok {r r' : Registry} {source : SourceText} {name : String} {h : Handle}
    (call : Loader.compile r source name = .ok (r', h)) :
    ∃ m, Module.compile source.text name = .ok m ∧ h = r.count ∧ r' = (r.register m).1 := by
  unfold Loader.compile Registry.compile at call
  cases compiled : Module.compile source.text name with
  | error e =>
    rw [compiled] at call
    cases call
  | ok m =>
    rw [compiled] at call
    cases call
    exact ⟨m, rfl, rfl, rfl⟩

/-- The kind of what is loaded is that of its location. -/
theorem kind_load {files : FileTree} {transport : Transport} {location : String}
    {content : Content} (h : Content.load files transport location = .ok content) :
    content.kind = .ofLocation location := by
  unfold Content.load at h
  dsimp only at h
  cases htext : Content.textOf files transport location (.ofLocation location) with
  | error e =>
    rw [htext] at h
    cases h
  | ok text =>
    simp only [htext, bind, Except.bind] at h
    split at h
    · cases h
      rfl
    · cases h

/-- The module that the content of a location is compiled to, or the reason why there is none. -/
def compiledAt (loader : Loader) (files : FileTree) (location : String) :
    Except LoadError Module :=
  match Content.load files loader.transport location with
  | .error e => .error e
  | .ok content =>
    match content.kind with
    | .nativeAddon => .error (.unsupported location "native addons cannot be compiled")
    | _ => (Module.compile content.source.text location).mapError (.compile location)

theorem compiledAt_eq_ok {loader : Loader} {files : FileTree} {location : String} {m : Module} :
    loader.compiledAt files location = .ok m ↔ loader.Holds files location m := by
  unfold compiledAt Holds
  cases load : Content.load files loader.transport location with
  | error e => simp
  | ok content =>
    by_cases addon : content.kind = .nativeAddon
    · simp [addon]
    · cases compiled : Module.compile content.source.text location with
      | error cause => simp [addon, compiled, Interface.mapError_error]
      | ok m' => simp [addon, compiled, Interface.mapError_ok]

/-- The reason why there is no module at a location: its content cannot be had, is that of an addon,
or does not compile. -/
theorem compiledAt_eq_error {loader : Loader} {files : FileTree} {location : String}
    {e : LoadError} : loader.compiledAt files location = .error e ↔
      Content.load files loader.transport location = .error e ∨
        ∃ content, Content.load files loader.transport location = .ok content ∧
          (content.kind = .nativeAddon ∧
              e = .unsupported location "native addons cannot be compiled" ∨
            content.kind ≠ .nativeAddon ∧
              ∃ cause, Module.compile content.source.text location = .error cause ∧
                e = .compile location cause) := by
  unfold compiledAt
  cases load : Content.load files loader.transport location with
  | error e' => simp
  | ok content =>
    by_cases addon : content.kind = .nativeAddon
    · simp [addon, eq_comm]
    · cases compiled : Module.compile content.source.text location with
      | error cause => simp [addon, compiled, Interface.mapError_error, eq_comm (a := e)]
      | ok m' => simp [addon, compiled, Interface.mapError_ok]

/-- Loading a location does what can be told without the registry. -/
theorem loadModule_eq (loader : Loader) (files : FileTree) (location : String) (main : Bool)
    (r : Registry) (requests : Requests) :
    loader.loadModule files location main r requests =
      match loader.compiledAt files location with
      | .error e => (.error e, r, requests ++ Content.requests location)
      | .ok m =>
        match stampOf files location (ContentKind.ofLocation location).isFile main with
        | .error e => (.error e, (r.register m).1, requests ++ Content.requests location)
        | .ok properties =>
          (.ok r.count, r.add ⟨m, .compiled, [], properties⟩,
            requests ++ Content.requests location) := by
  unfold loadModule compiledAt
  cases load : Content.load files loader.transport location with
  | error e => rfl
  | ok content =>
    rw [← kind_load load]
    unfold accept
    by_cases addon : content.kind = .nativeAddon
    · simp only [addon]
    · cases compiled : Module.compile content.source.text location with
      | error cause =>
        have refused : Loader.compile r content.source location =
            .error (.compile location cause) := by
          unfold Loader.compile Registry.compile
          rw [compiled]
          rfl
        simp only [compiled, refused, Interface.mapError_error]
      | ok m =>
        have registered : Loader.compile r content.source location =
            .ok ((r.register m).1, r.count) := by
          unfold Loader.compile Registry.compile
          rw [compiled]
          rfl
        simp only [compiled, registered, Interface.mapError_ok]
        cases stamped : stampOf files location content.kind.isFile main with
        | error e =>
          have unstamped : (r.register m).1.stamp files r.count location content.kind.isFile main =
              .error e := by
            unfold Registry.stamp
            rw [stamped]
            rfl
          simp only [unstamped]
        | ok properties =>
          have done := stamp_eq_ok.2 ⟨properties, _, stamped, get?_registered r m, rfl⟩
          obtain ⟨properties', stamped', adds⟩ := (adds_register r m).stamp done
          cases stamped.symm.trans stamped'
          simp only [done]
          rw [show _ = r.add _ from adds]

/-- What loading a location comes to. -/
inductive Loads (loader : Loader) (files : FileTree) (location : String) (main : Bool)
    (r : Registry) : Except LoadError Handle → Registry → Prop where
  /-- There is no module at the location. -/
  | refused {e : LoadError} : loader.compiledAt files location = .error e →
    Loads loader files location main r (.error e) r
  /-- The module of a file that has no real path is left without properties. -/
  | left {m : Module} {cause : FileError} : loader.Holds files location m →
    Specifier.isUrl location = false → files.realPath location = .error cause →
    Loads loader files location main r (.error (.realPath location cause)) (r.register m).1
  | added {m : Module} {properties : ImportMeta} : loader.Holds files location m →
    stampOf files location (ContentKind.ofLocation location).isFile main = .ok properties →
    Loads loader files location main r (.ok r.count) (r.add ⟨m, .compiled, [], properties⟩)

theorem loadModule_loads {loader : Loader} {files : FileTree} {location : String} {main : Bool}
    {r r' : Registry} {requests requests' : Requests} {result : Except LoadError Handle}
    (call : loader.loadModule files location main r requests = (result, r', requests')) :
    loader.Loads files location main r result r' := by
  rw [loadModule_eq] at call
  split at call
  · rename_i e refused
    cases call
    exact .refused refused
  · rename_i m compiled
    have holds := compiledAt_eq_ok.1 compiled
    split at call
    · rename_i e unstamped
      cases call
      obtain ⟨file, cause, path, rfl⟩ := stampOf_eq_error.1 unstamped
      rw [ContentKind.isFile_ofLocation, Bool.not_eq_true'] at file
      exact .left holds file path
    · rename_i properties stamped
      cases call
      exact .added holds stamped

/-- A location whose content compiles and that can be stamped is loaded. -/
theorem loadModule_added {loader : Loader} {files : FileTree} {location : String} {main : Bool}
    {m : Module} {properties : ImportMeta} (holds : loader.Holds files location m)
    (stamped : stampOf files location (ContentKind.ofLocation location).isFile main =
      .ok properties) (r : Registry) (requests : Requests) :
    loader.loadModule files location main r requests =
      (.ok r.count, r.add ⟨m, .compiled, [], properties⟩,
        requests ++ Content.requests location) := by
  rw [loadModule_eq, compiledAt_eq_ok.2 holds]
  simp only [stamped]

/-- A location without a module is refused, and nothing is added. -/
theorem loadModule_refused {loader : Loader} {files : FileTree} {location : String} {e : LoadError}
    (refused : loader.compiledAt files location = .error e) (main : Bool) (r : Registry)
    (requests : Requests) :
    loader.loadModule files location main r requests =
      (.error e, r, requests ++ Content.requests location) := by
  rw [loadModule_eq, refused]

/-- The module of a file that has no real path is left behind. -/
theorem loadModule_left {loader : Loader} {files : FileTree} {location : String} {m : Module}
    {cause : FileError} (holds : loader.Holds files location m)
    (file : Specifier.isUrl location = false) (path : files.realPath location = .error cause)
    (main : Bool) (r : Registry) (requests : Requests) :
    loader.loadModule files location main r requests =
      (.error (.realPath location cause), (r.register m).1,
        requests ++ Content.requests location) := by
  have kind : (ContentKind.ofLocation location).isFile = true := by
    rw [ContentKind.isFile_ofLocation, file]
    rfl
  have unstamped : stampOf files location (ContentKind.ofLocation location).isFile main =
      .error (.realPath location cause) := stampOf_eq_error.2 ⟨kind, cause, path, rfl⟩
  rw [loadModule_eq, compiledAt_eq_ok.2 holds]
  simp only [unstamped]

end Loader

end Esm
