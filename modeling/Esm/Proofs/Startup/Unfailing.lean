-- SUMMARY: As long as no run fails, every module is linked, and all that modules import is registered.
import Esm.Proofs.Loader.Serving
import Esm.Proofs.Startup.Started

/-!
# Runtimes in which nothing has failed

When a runtime has started, and after every run of an entry module that succeeds, all modules are
linked, and something is registered under each name that one of them imports.
-/

namespace Esm

namespace Registry

/-- Every module is linked, and every name that a module imports is registered. -/
structure Whole (names : String → String → String) (r : Registry) : Prop where
  indexed : r.Indexed
  linked : ∀ {h m}, r.get? h = some m → m.status = .linked ∨ m.status = .evaluated
  registered : ∀ {h m}, r.get? h = some m → ∀ name ∈ m.module.imports names,
    ∃ d, r.find? name = some d

variable {names : String → String → String} {r r' : Registry}

theorem Whole.empty : Whole names .empty := ⟨.empty, nofun, nofun⟩

theorem Whole.update (whole : r.Whole names) (h : Handle) {change : Registered → Registered}
    (module : ∀ m, (change m).module = m.module)
    (status : ∀ m, m.status = .linked ∨ m.status = .evaluated →
      (change m).status = .linked ∨ (change m).status = .evaluated) :
    (r.update h change).Whole names := by
  refine ⟨whole.indexed.update h module, fun {k m'} found' => ?_, fun {k m'} found' => ?_⟩
  · rw [get?_update] at found'
    split at found'
    · obtain ⟨m, found, rfl⟩ := Option.map_eq_some_iff.1 found'
      exact status m (whole.linked found)
    · exact whole.linked found'
  · simp only [find?_update]
    rw [get?_update] at found'
    split at found'
    · obtain ⟨m, found, rfl⟩ := Option.map_eq_some_iff.1 found'
      rw [module]
      exact whole.registered found
    · exact whole.registered found'

theorem Whole.stamp (whole : r.Whole names) {files : FileTree} {h : Handle} {location : String}
    {real main : Bool} (call : r.stamp files h location real main = .ok r') : r'.Whole names := by
  obtain ⟨properties, m, -, -, rfl⟩ := stamp_eq_ok.1 call
  exact whole.update h (fun _ => rfl) fun _ bound => bound

theorem Whole.markEvaluated (whole : r.Whole names) (pending : List Handle) :
    (r.markEvaluated pending).Whole names := by
  fun_induction Registry.markEvaluated r pending with
  | case1 r => exact whole
  | case2 r h pending absent ih => exact ih whole
  | case3 r h pending m found evaluated ih => exact ih whole
  | case4 r h pending m found fresh ih =>
    exact ih (whole.update h (fun _ => rfl) fun _ _ => Or.inr rfl)

end Registry

namespace Linking

open Registry

variable {σ ε : Type} {host : Host σ ε} {States : σ → Prop} {names : String → String → String}
  {offers : String → Module → Prop} {r r' : Registry} {state : σ} {s : Linking σ}

/-- A module that is added and linked, and any that is loaded for it, is linked by then. -/
theorem linked_of_added (supplies : host.Supplies States names offers) (hstate : States state)
    (indexed : r.Indexed) {m : Module} {properties : ImportMeta}
    (adds : r.Adds ⟨m, .compiled, [], properties⟩ r')
    (links : Links host r.count ⟨r', state⟩ (.ok ()) s) {k : Handle} {n : Registered}
    (absent : r.get? k = none) (found : s.registry.get? k = some n) : n.status = .linked := by
  have steady : InStep States ⟨r', state⟩ := ⟨hstate, adds.indexed indexed⟩
  obtain ⟨-, grows⟩ := (grows_cases supplies).links links steady
  obtain ⟨leaves, done⟩ := (leaves_cases supplies).links links steady
  cases before : r'.get? k with
  | none =>
    refine (grows.advances.added before found).resolve_left fun compiled => ?_
    exact Blamed.ok (leaves.added before ⟨n, found, compiled⟩)
  | some m₀ =>
    rcases adds.get?_eq_some before with ⟨rfl, rfl⟩ | before
    · obtain ⟨_, kept, advance⟩ := grows.advances.kept before
      cases kept.symm.trans found
      refine (advance.moved rfl).resolve_left fun compiled => ?_
      obtain bound | ⟨_, found', linking⟩ := done rfl
      · exact bound.not_compiled ⟨n, found, compiled⟩
      · cases found'.symm.trans found
        cases linking.symm.trans compiled
    · cases absent.symm.trans before

/-- Where everything is linked, a module that is added and linked leaves it so. -/
theorem whole_link (supplies : host.Supplies States names offers) (hstate : States state)
    (whole : r.Whole names) {m : Module} {properties : ImportMeta}
    (adds : r.Adds ⟨m, .compiled, [], properties⟩ r')
    (links : Links host r.count ⟨r', state⟩ (.ok ()) s) : s.registry.Whole names := by
  have steady : InStep States ⟨r', state⟩ := ⟨hstate, adds.indexed whole.indexed⟩
  obtain ⟨steady', grows⟩ := (grows_cases supplies).links links steady
  obtain ⟨leaves, -⟩ := (leaves_cases supplies).links links steady
  have each : ∀ {k m'}, s.registry.get? k = some m' →
      (m'.status = .linked ∨ m'.status = .evaluated) ∧
        ∀ name ∈ m'.module.imports names, ∃ d, s.registry.find? name = some d := by
    intro k m' found'
    cases before : r.get? k with
    | none =>
      -- it has just been linked, to what its imports mean
      have linked := linked_of_added supplies hstate whole.indexed adds links before found'
      have fresh : ∀ n, r'.get? k = some n → n.status = .compiled := by
        intro n found
        rcases adds.get?_eq_some found with ⟨-, rfl⟩ | found
        · rfl
        · cases before.symm.trans found
      refine ⟨Or.inl linked, fun name mem => ?_⟩
      obtain ⟨d, target⟩ := exists_of_forall₂ (leaves.linked found' linked fresh) mem
      exact ⟨d, target.named⟩
    | some n =>
      have bound := whole.linked before
      have known : r'.get? k = some n := by
        rw [adds.get?, if_neg (Nat.ne_of_lt (get?_eq_some_lt before)), before]
      obtain ⟨_, kept, advance⟩ := grows.advances.kept known
      cases kept.symm.trans found'
      have past : n.status ≠ .compiled := by
        rcases bound with status | status <;> rw [status] <;> exact nofun
      rw [(advance.held past).1, advance.module]
      refine ⟨bound, fun name mem => ?_⟩
      obtain ⟨d, named⟩ := whole.registered before name mem
      have named' : ∃ d, r'.find? name = some d := by
        rw [adds.find?]
        split
        · exact ⟨r.count, rfl⟩
        · exact ⟨d, named⟩
      exact named'.imp fun d named => grows.named named
  exact ⟨steady'.indexed, fun found => (each found).1, fun found => (each found).2⟩

theorem whole_evaluate (supplies : host.Supplies States names offers) (hstate : States state)
    (whole : r.Whole names) {m : Module} {properties : ImportMeta}
    (adds : r.Adds ⟨m, .compiled, [], properties⟩ r') {depth : Nat}
    (run : evaluate host depth r.count ⟨r', state⟩ = some (.ok (), s)) :
    s.registry.Whole names := by
  obtain ⟨t, link, rfl⟩ := evaluate_eq run
  exact (whole_link supplies hstate whole adds ⟨_, link⟩).markEvaluated _

end Linking

-- ---------------------------------------------------------------------------
-- Startup and runs
-- ---------------------------------------------------------------------------

open Registry

variable {loader : Loader} {startup : Startup} {files : FileTree} {depth : Nat}

namespace Startup

theorem whole_addGlobals {s s' : Linking Loader.Requests} {h : Handle}
    (whole : s.registry.Whole (loader.names files))
    (call : startup.addGlobalsWithin depth loader files s = some (.ok h, s')) :
    s'.registry.Whole (loader.names files) := by
  obtain ⟨m, rfl, run⟩ := addGlobalsWithin_eq_ok call
  have run' := Linking.evaluate_eq_ok_atomic (loader.host_leaves files) run
  exact Linking.whole_evaluate (loader.host_serves files).supplies trivial whole
    (adds_register _ m) run'

theorem whole_addLibrary {s s' : Linking Loader.Requests} {h : Handle}
    (whole : s.registry.Whole (loader.names files))
    (call : startup.addLibraryWithin depth loader files s = some (.ok h, s')) :
    s'.registry.Whole (loader.names files) := by
  have leaves := loader.host_leaves files
  have supplies := (loader.host_serves files).supplies
  obtain ⟨m, rfl, ⟨t, r, link, stamp, rfl⟩ | ⟨r, stamp, run⟩⟩ := addLibraryWithin_eq_ok call
  · have link' := Linking.link_eq_ok_atomic leaves link
    exact (Linking.whole_link supplies trivial whole (adds_register _ m) ⟨_, link'⟩).stamp stamp
  · obtain ⟨properties, -, adds⟩ := (adds_register _ m).stamp stamp
    exact Linking.whole_evaluate supplies trivial whole adds
      (Linking.evaluate_eq_ok_atomic leaves run)

end Startup

namespace Environment

/-- A runtime has started, and since then entry modules were run, all with success. The files have
been the same all the time. -/
inductive Unfailing (loader : Loader) (startup : Startup) (files : FileTree) :
    Environment → Prop where
  | start {env : Environment} {depth : Nat} :
    startWithin depth loader startup files = some (.ok env) → Unfailing loader startup files env
  | run {env env' : Environment} {depth : Nat} {path : String} {h : Handle} :
    Unfailing loader startup files env →
    env.runMainWithin depth files path = some (.ok h, env') → Unfailing loader startup files env'

variable {env : Environment}

theorem Unfailing.loader_eq (unfailing : Unfailing loader startup files env) :
    env.loader = loader := by
  induction unfailing with
  | start started =>
    obtain ⟨_, _, _, -, -, same⟩ := startWithin_eq_ok started
    exact same
  | run _ ran ih =>
    obtain ⟨r, requests, s, -, -, rfl⟩ := runMainWithin_eq_ok.1 ran
    exact ih

/-- As long as no run fails, all modules are linked, and what they import is registered. -/
theorem Unfailing.whole (unfailing : Unfailing loader startup files env) :
    env.registry.Whole (loader.names files) := by
  induction unfailing with
  | start started =>
    obtain ⟨bundle, library, s, globals, builtin, -⟩ := startWithin_eq_ok started
    exact Startup.whole_addLibrary (Startup.whole_addGlobals .empty globals) builtin
  | @run env _ _ _ _ before ran ih =>
    obtain ⟨r, requests, s, load, run, rfl⟩ := runMainWithin_eq_ok.1 ran
    rw [before.loader_eq] at load run
    have run' := Linking.evaluate_eq_ok_atomic (loader.host_leaves files) run
    cases Loader.loadModule_loads load with
    | @added m properties _ _ =>
      exact Linking.whole_evaluate (m := m) (loader.host_serves files).supplies trivial ih rfl run'

end Environment

end Esm
