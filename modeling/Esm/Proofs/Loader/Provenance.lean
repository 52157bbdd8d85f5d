-- SUMMARY: Where the properties of registered modules come from, from startup to the end of a run.
import Esm.Proofs.Loader.Addresses
import Esm.Proofs.Registry.LinkInduction
import Esm.Proofs.Startup.Started

/-!
# Provenance

Every registered module has no properties, or is the standard library with its stamp, or was loaded
from the location that is its name. No location is loaded twice: linking asks for the name first.
Only entry modules are loaded without asking.
-/

namespace Esm

namespace Registry

/-- Every module is still there, with its properties. -/
def Retains (r r' : Registry) : Prop :=
  ∀ ⦃k m⦄, r.get? k = some m →
    ∃ m', r'.get? k = some m' ∧ m'.module = m.module ∧ m'.importMeta = m.importMeta

/-- Where the properties of modules come from: the module `library`, if it is given, has the stamp
of the standard library; any other has none, or was loaded, and no two were loaded from one
location. -/
structure Traced (files : FileTree) (library : Option Handle) (r : Registry) : Prop where
  indexed : r.Indexed
  origin : ∀ {k m}, r.get? k = some m → m.importMeta = [] ∨
    (library = some k ∧ m.importMeta = Startup.libraryStamp) ∨ m.Loaded files
  single : ∀ {k k' m m'}, r.get? k = some m → r.get? k' = some m' → m.Loaded files →
    m'.Loaded files → m.module.name = m'.module.name → k = k'

variable {files : FileTree} {library : Option Handle}

theorem Retains.refl (r : Registry) : r.Retains r := fun _ m found => ⟨m, found, rfl, rfl⟩

theorem Retains.update {r r' : Registry} (retains : r.Retains r') (h : Handle)
    {change : Registered → Registered} (module : ∀ m, (change m).module = m.module)
    (importMeta : ∀ m, (change m).importMeta = m.importMeta) : r.Retains (r'.update h change) := by
  intro k m found
  obtain ⟨m', found', hmodule, hmeta⟩ := retains found
  rw [get?_update, found']
  by_cases same : k = h
  · exact ⟨change m', by rw [if_pos same]; rfl, (module m').trans hmodule,
      (importMeta m').trans hmeta⟩
  · exact ⟨m', by rw [if_neg same], hmodule, hmeta⟩

theorem Retains.adds {r r' r'' : Registry} {m : Registered} (retains : r.Retains r')
    (adds : r'.Adds m r'') : r.Retains r'' := by
  intro k n found
  obtain ⟨n', found', same⟩ := retains found
  refine ⟨n', ?_, same⟩
  rw [adds.get?, if_neg (Nat.ne_of_lt (get?_eq_some_lt found')), found']

theorem Traced.empty (files : FileTree) : Traced files none .empty := ⟨.empty, nofun, nofun⟩

theorem Traced.update {r : Registry} (traced : r.Traced files library) (h : Handle)
    {change : Registered → Registered} (module : ∀ m, (change m).module = m.module)
    (importMeta : ∀ m, (change m).importMeta = m.importMeta) :
    (r.update h change).Traced files library := by
  refine ⟨traced.indexed.update h module, ?_, ?_⟩
  · intro k m' found'
    obtain ⟨m, found, hmodule, hmeta⟩ := get?_of_update module importMeta found'
    rw [← hmeta]
    rcases traced.origin found with none | stamp | loaded
    · exact Or.inl none
    · exact Or.inr (Or.inl stamp)
    · exact Or.inr (Or.inr (loaded.of_same hmodule.symm hmeta.symm))
  · intro k k' m' n' hm hn loaded loaded' same
    obtain ⟨m, found, hmodule, hmeta⟩ := get?_of_update module importMeta hm
    obtain ⟨n, found', hmodule', hmeta'⟩ := get?_of_update module importMeta hn
    refine traced.single found found' (loaded.of_same hmodule hmeta)
      (loaded'.of_same hmodule' hmeta') ?_
    rw [hmodule, hmodule']
    exact same

/-- A module may be added that has no properties, or that was loaded from a location from which no
other was loaded. -/
theorem Traced.adds {r r' : Registry} {m : Registered} (traced : r.Traced files library)
    (adds : r.Adds m r') (known : m.importMeta = [] ∨ m.Loaded files)
    (fresh : m.Loaded files → ∀ k n, r.get? k = some n → n.Loaded files →
      n.module.name ≠ m.module.name) : r'.Traced files library := by
  refine ⟨adds.indexed traced.indexed, ?_, ?_⟩
  · intro k n found
    rcases adds.get?_eq_some found with ⟨-, rfl⟩ | found
    · exact known.imp_right Or.inr
    · exact traced.origin found
  · intro k k' n n' hn hn' loaded loaded' same
    rcases adds.get?_eq_some hn with ⟨rfl, rfl⟩ | found
    · rcases adds.get?_eq_some hn' with ⟨rfl, rfl⟩ | found'
      · rfl
      · exact absurd same.symm (fresh loaded _ _ found' loaded')
    · rcases adds.get?_eq_some hn' with ⟨rfl, rfl⟩ | found'
      · exact absurd same (fresh loaded' _ _ found loaded)
      · exact traced.single found found' loaded loaded' same

/-- A module may be registered that has no properties. -/
theorem Traced.register {r : Registry} (linkless : files.Linkless) (traced : r.Traced files library)
    (m : Module) : (r.register m).1.Traced files library := by
  apply traced.adds (adds_register r m) (Or.inl rfl)
  intro loaded
  exact absurd loaded (Registered.not_loaded linkless (Or.inl rfl))

/-- Stamping the standard library, which has no properties yet. -/
theorem Traced.stampLibrary {r r' : Registry} (linkless : files.Linkless)
    (traced : r.Traced files none) {h : Handle} {m : Registered} (found : r.get? h = some m)
    (plain : m.importMeta = [])
    (call : r.stamp files h Startup.libraryName false false = .ok r') :
    r'.Traced files (some h) := by
  obtain ⟨properties, _, stamped, -, rfl⟩ := stamp_eq_ok.1 call
  cases stamped
  have before : ∀ {k n},
      (r.update h fun m =>
        { m with importMeta := m.importMeta.defineAll Startup.libraryStamp }).get? k = some n →
      (k = h ∧ n.importMeta = Startup.libraryStamp) ∨ r.get? k = some n := by
    intro k n after
    rw [get?_update] at after
    by_cases same : k = h
    · rw [if_pos same, same, found] at after
      cases after
      refine Or.inl ⟨same, ?_⟩
      dsimp only
      rw [plain]
      rfl
    · rw [if_neg same] at after
      exact Or.inr after
  refine ⟨traced.indexed.update h fun _ => rfl, ?_, ?_⟩
  · intro k n after
    rcases before after with ⟨rfl, stamp⟩ | found
    · exact Or.inr (Or.inl ⟨rfl, stamp⟩)
    · rcases traced.origin found with none | ⟨given, -⟩ | loaded
      · exact Or.inl none
      · cases given
      · exact Or.inr (Or.inr loaded)
  · intro k k' n n' hn hn' loaded loaded' same
    rcases before hn with ⟨-, stamp⟩ | found
    · exact absurd loaded (Registered.not_loaded linkless (Or.inr stamp))
    · rcases before hn' with ⟨-, stamp⟩ | found'
      · exact absurd loaded' (Registered.not_loaded linkless (Or.inr stamp))
      · exact traced.single found found' loaded loaded' same

end Registry

-- ---------------------------------------------------------------------------
-- Loading and linking
-- ---------------------------------------------------------------------------

namespace Loader

open Registry

variable {files : FileTree} {library : Option Handle} {loader : Loader}

/-- A location may be loaded from which no module was loaded before. -/
theorem traced_loadModule (linkless : files.Linkless) {location : String} {main : Bool}
    {r r' : Registry} {requests requests' : Requests} {result : Except LoadError Handle}
    (call : loader.loadModule files location main r requests = (result, r', requests'))
    (traced : r.Traced files library)
    (fresh : ∀ k n, r.get? k = some n → n.Loaded files → n.module.name ≠ location) :
    r'.Traced files library := by
  cases loadModule_loads call with
  | refused _ => exact traced
  | @left m _ _ _ _ => exact traced.register linkless m
  | @added m properties holds stamped =>
    refine traced.adds (m := ⟨m, .compiled, [], properties⟩) rfl (Or.inr ⟨main, ?_⟩) ?_
    · dsimp only
      rw [holds.name]
      exact stamped
    · intro _ k n found loaded
      dsimp only
      rw [holds.name]
      exact fresh k n found loaded

theorem retains_loadModule {location : String} {main : Bool} {r₀ r r' : Registry}
    {requests requests' : Requests} {result : Except LoadError Handle}
    (call : loader.loadModule files location main r requests = (result, r', requests'))
    (retains : r₀.Retains r) : r₀.Retains r' := by
  cases loadModule_loads call with
  | refused _ => exact retains
  | @left m _ _ _ _ => exact retains.adds (adds_register r m)
  | added _ _ => exact retains.adds rfl

/-- Linking and evaluation load only locations whose names are not registered. -/
theorem traced_kept (linkless : files.Linkless) :
    Linking.Kept (loader.host files) (Traced files library) := by
  refine ⟨?_, ?_, ?_⟩
  · intro name r state absent traced
    have call : loader.loadModule files name false r state =
        ((loader.host files).load name r state) :=
      rfl
    apply traced_loadModule linkless call traced
    intro k n found _
    exact traced.indexed.find?_eq_none.1 absent k n found
  · exact fun r h status traced => traced.update h (fun _ => rfl) fun _ => rfl
  · exact fun r h dependencies traced => traced.update h (fun _ => rfl) fun _ => rfl

theorem retains_kept (r₀ : Registry) : Linking.Kept (loader.host files) r₀.Retains := by
  refine ⟨?_, ?_, ?_⟩
  · intro name r state _ retains
    have call : loader.loadModule files name false r state =
        ((loader.host files).load name r state) :=
      rfl
    exact retains_loadModule call retains
  · exact fun r h status retains => retains.update h (fun _ => rfl) fun _ => rfl
  · exact fun r h dependencies retains => retains.update h (fun _ => rfl) fun _ => rfl

end Loader

-- ---------------------------------------------------------------------------
-- Startup
-- ---------------------------------------------------------------------------

namespace Startup

open Registry

variable {files : FileTree} {loader : Loader} {startup : Startup} {depth : Nat}

theorem traced_addGlobals (linkless : files.Linkless) {s s' : Linking Loader.Requests} {h : Handle}
    (call : startup.addGlobalsWithin depth loader files s = some (.ok h, s'))
    (traced : s.registry.Traced files none) : s'.registry.Traced files none := by
  obtain ⟨m, -, run⟩ := addGlobalsWithin_eq_ok call
  exact (Loader.traced_kept linkless).evaluate run (traced.register linkless m)

/-- The library has no properties until it is stamped, whether or not it is linked before. -/
theorem traced_addLibrary (linkless : files.Linkless) {s s' : Linking Loader.Requests} {h : Handle}
    (call : startup.addLibraryWithin depth loader files s = some (.ok h, s'))
    (traced : s.registry.Traced files none) :
    ∃ library, s'.registry.Traced files (some library) := by
  obtain ⟨m, rfl, ⟨t, r, linked, stamped, rfl⟩ | ⟨r, stamped, run⟩⟩ := addLibraryWithin_eq_ok call
  · have plain := get?_registered s.registry m
    have run : Linking.Links (loader.host files) _ _ _ t := ⟨depth, linked⟩
    obtain ⟨m', found, -, hmeta⟩ :=
      (Loader.retains_kept _).link run (Retains.refl (s.registry.register m).1) plain
    have before := (Loader.traced_kept linkless).link run (traced.register linkless m)
    exact ⟨_, before.stampLibrary linkless found hmeta stamped⟩
  · have before := traced.register linkless m
    have after := before.stampLibrary linkless (get?_registered s.registry m) rfl stamped
    exact ⟨_, (Loader.traced_kept linkless).evaluate run after⟩

end Startup

-- ---------------------------------------------------------------------------
-- Running an entry module
-- ---------------------------------------------------------------------------

namespace Environment

open Registry

variable {files : FileTree} {loader : Loader} {startup : Startup} {env env' : Environment}

theorem traced_startWithin (linkless : files.Linkless) {depth : Nat}
    (started : startWithin depth loader startup files = some (.ok env)) :
    ∃ library, env.registry.Traced files (some library) := by
  obtain ⟨_, _, s, globals, library, -⟩ := startWithin_eq_ok started
  have traced := Startup.traced_addGlobals linkless globals (Traced.empty files)
  exact Startup.traced_addLibrary linkless library traced

end Environment

end Esm
