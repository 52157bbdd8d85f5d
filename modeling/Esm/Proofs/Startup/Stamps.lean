-- SUMMARY: What the modules of a runtime are stamped with, whatever entry modules it has run.
import Esm.Proofs.Loader.Atomicity
import Esm.Proofs.Loader.Identity
import Esm.Proofs.Loader.Stamping

/-!
# Stamps of a runtime

A runtime registers the bundle, which it never stamps, and the library, which has a name instead of
an address. Every other module is loaded, as an entry module or to link an import, and is stamped
when it is, unless it comes from a file that has no real path. So whatever entry modules are run, and
whether or not the runs succeed, every module but the bundle tells its address and whether it is the
main module, or was left behind by a load that failed; and only the entry modules are main.
-/

namespace Esm

-- ---------------------------------------------------------------------------
-- Addresses and their parts
-- ---------------------------------------------------------------------------

/-- Whether the module is the main module, as its properties tell. -/
def Registered.main? (m : Registered) : Option MetaValue := m.importMeta.lookup "main"

/-- A module from the web tells its name as its address, and no more. A module from a file tells the
directory and the name of the file as well, and its address is made of the two. -/
def Registered.Addressed (m : Registered) : Prop :=
  if Specifier.isUrl m.module.name then
    m.url? = some (.text m.module.name) ∧ m.importMeta.lookup "dirname" = none ∧
      m.importMeta.lookup "basename" = none
  else
    ∃ directory name, m.url? = some (.text ("file://" ++ joinPath directory name)) ∧
      m.importMeta.lookup "dirname" = some (.text directory) ∧
      m.importMeta.lookup "basename" = some (.text name) ∧ '/' ∉ name.toList

theorem Registered.Addressed.url {m : Registered} (addressed : m.Addressed) :
    ∃ url, m.url? = some url := by
  unfold Addressed at addressed
  split at addressed
  · exact ⟨_, addressed.1⟩
  · obtain ⟨directory, name, url, -⟩ := addressed
    exact ⟨_, url⟩

theorem Registered.addressed_of_same {m m' : Registered} (module : m.module = m'.module)
    (importMeta : m.importMeta = m'.importMeta) (addressed : m.Addressed) : m'.Addressed := by
  unfold Addressed url? at *
  rw [← module, ← importMeta]
  exact addressed

/-- The stamp of its location tells a module's address and whether it is main. -/
theorem Registered.addressed_of_stampOf {files : FileTree} (named : files.Named) {m : Registered}
    {main : Bool} (stamped : Registry.stampOf files m.module.name
      (ContentKind.ofLocation m.module.name).isFile main = .ok m.importMeta) :
    m.Addressed ∧ m.main? = some (.flag main) := by
  rw [ContentKind.isFile_ofLocation] at stamped
  unfold Addressed main? url?
  cases web : Specifier.isUrl m.module.name with
  | true =>
    rw [web, Bool.not_true, Registry.stampOf_literal] at stamped
    rw [← Except.ok.inj stamped]
    exact ⟨⟨rfl, rfl, rfl⟩, rfl⟩
  | false =>
    rw [web, Bool.not_false] at stamped
    obtain ⟨real, path, properties⟩ := Registry.stampOf_real_eq_ok stamped
    obtain ⟨joined, noSlash⟩ := FileTree.joinPath_realPath named path
    rw [properties]
    exact ⟨⟨_, _, by rw [joined]; rfl, rfl, rfl, noSlash⟩, rfl⟩

/-- A file holds the module of its name, but has no real path. -/
def Loader.Unstampable (loader : Loader) (files : FileTree) (m : Module) : Prop :=
  loader.Holds files m.name m ∧ Specifier.isUrl m.name = false ∧
    ∃ cause, files.realPath m.name = .error cause

/-- Where every location can be spelled to the system, there is no such file. -/
theorem FileTree.Spelled.stampable {files : FileTree} (spelled : files.Spelled) {loader : Loader}
    {m : Module} : ¬ loader.Unstampable files m := by
  rintro ⟨holds, file, cause, path⟩
  obtain ⟨text, had, -⟩ := (Loader.holds_iff file).1 holds
  unfold Content.readText at had
  cases read : files.read m.name with
  | error e =>
    rw [read] at had
    cases had
  | ok bytes =>
    obtain ⟨location, entry, found⟩ := Loader.find_of_read read
    cases path.symm.trans (spelled.realPath_of_find found)

/-- A module tells its address and whether it is main, or it is not main and has no properties since it
could not be stamped. -/
def Registered.Told (Unstamped : Module → Prop) (main : Bool) (m : Registered) : Prop :=
  (m.Addressed ∧ m.main? = some (.flag main)) ∨
    (m.importMeta = [] ∧ main = false ∧ Unstamped m.module)

theorem Registered.told_of_same {Unstamped : Module → Prop} {main : Bool} {m m' : Registered}
    (module : m.module = m'.module) (importMeta : m.importMeta = m'.importMeta)
    (told : m.Told Unstamped main) : m'.Told Unstamped main := by
  unfold Told main? at *
  rw [← module, ← importMeta]
  exact told.imp_left fun ⟨addressed, flag⟩ =>
    ⟨addressed_of_same module importMeta addressed, flag⟩

-- ---------------------------------------------------------------------------
-- Registries
-- ---------------------------------------------------------------------------

namespace Registry

/-- The modules that have properties of their own have these; any other tells its address, and that
it is main if it is one of `entries`, unless it could not be stamped. -/
structure Stamped (own : Handle → Option ImportMeta) (entries : List Handle)
    (Unstamped : Module → Prop) (r : Registry) : Prop where
  known : ∀ {k p}, own k = some p → k < r.count
  entry : ∀ {k}, k ∈ entries → k < r.count ∧ own k = none
  same : ∀ {k m p}, r.get? k = some m → own k = some p → m.importMeta = p
  stamp : ∀ {k m}, r.get? k = some m → own k = none →
    m.Told Unstamped (decide (k ∈ entries))

variable {own : Handle → Option ImportMeta} {entries : List Handle} {Unstamped : Module → Prop}
  {r : Registry}

theorem Stamped.empty (Unstamped : Module → Prop) : Stamped (fun _ => none) [] Unstamped .empty :=
  ⟨nofun, nofun, nofun, nofun⟩

theorem Stamped.mono (stamped : r.Stamped own entries Unstamped) {Unstamped' : Module → Prop}
    (more : ∀ m, Unstamped m → Unstamped' m) : r.Stamped own entries Unstamped' :=
  { stamped with
    stamp := fun found free => (stamped.stamp found free).imp_right fun ⟨bare, main, unstamped⟩ =>
      ⟨bare, main, more _ unstamped⟩ }

theorem Stamped.update (stamped : r.Stamped own entries Unstamped) (h : Handle)
    {change : Registered → Registered} (module : ∀ m, (change m).module = m.module)
    (importMeta : ∀ m, (change m).importMeta = m.importMeta) :
    (r.update h change).Stamped own entries Unstamped := by
  refine ⟨?_, ?_, ?_, ?_⟩
  · intro k p given
    rw [count_update]
    exact stamped.known given
  · intro k mem
    rw [count_update]
    exact stamped.entry mem
  · intro k m' p found' given
    obtain ⟨m, found, -, hmeta⟩ := get?_of_update module importMeta found'
    rw [← hmeta]
    exact stamped.same found given
  · intro k m' found' free
    obtain ⟨m, found, hmodule, hmeta⟩ := get?_of_update module importMeta found'
    exact Registered.told_of_same hmodule hmeta (stamped.stamp found free)

/-- A module that tells its address may be added, or that could not be stamped; it is main if it is
added to the entries. -/
theorem Stamped.adds {r' : Registry} {m : Registered} (stamped : r.Stamped own entries Unstamped)
    (adds : r.Adds m r') (more : List Handle) (last : ∀ k ∈ more, k = r.count)
    (told : m.Told Unstamped (decide (r.count ∈ more))) :
    r'.Stamped own (entries ++ more) Unstamped := by
  have free : own r.count = none := by
    cases given : own r.count with
    | none => rfl
    | some p => exact absurd (stamped.known given) (Nat.lt_irrefl _)
  have grown : r.count < r'.count := by
    rw [adds.count]
    exact Nat.lt_succ_self _
  refine ⟨?_, ?_, ?_, ?_⟩
  · intro k p given
    exact Nat.lt_trans (stamped.known given) grown
  · intro k mem
    rcases List.mem_append.1 mem with mem | mem
    · exact ⟨Nat.lt_trans (stamped.entry mem).1 grown, (stamped.entry mem).2⟩
    · rw [last k mem]
      exact ⟨grown, free⟩
  · intro k n p found given
    rcases adds.get?_eq_some found with ⟨rfl, -⟩ | found
    · rw [free] at given
      cases given
    · exact stamped.same found given
  · intro k n found none
    rcases adds.get?_eq_some found with ⟨rfl, rfl⟩ | found
    · -- its handle is new, so that it is an entry only if it is among `more`
      have fresh : r.count ∉ entries := fun mem => Nat.lt_irrefl _ (stamped.entry mem).1
      simp only [List.mem_append, fresh, false_or]
      exact told
    · have before : k ∉ more := by
        intro mem
        rw [last k mem] at found
        exact absurd (get?_eq_some_lt found) (Nat.lt_irrefl _)
      simp only [List.mem_append, before, or_false]
      exact stamped.stamp found none

/-- A built-in module has no properties when it is registered. -/
theorem Stamped.register (stamped : r.Stamped own entries Unstamped) (m : Module) :
    (r.register m).1.Stamped (fun k => if k = r.count then some [] else own k) entries
      Unstamped := by
  have adds := adds_register r m
  have grown : r.count < (r.register m).1.count := by
    rw [adds.count]
    exact Nat.lt_succ_self _
  refine ⟨?_, ?_, ?_, ?_⟩
  · intro k p given
    split at given
    · rename_i last
      rw [last]
      exact grown
    · exact Nat.lt_trans (stamped.known given) grown
  · intro k mem
    obtain ⟨below, free⟩ := stamped.entry mem
    exact ⟨Nat.lt_trans below grown, (if_neg (Nat.ne_of_lt below)).trans free⟩
  · intro k n p found given
    rcases adds.get?_eq_some found with ⟨rfl, rfl⟩ | found
    · rw [if_pos rfl] at given
      exact Option.some.inj given
    · rw [if_neg (Nat.ne_of_lt (get?_eq_some_lt found))] at given
      exact stamped.same found given
  · intro k n found free
    split at free
    · cases free
    · rename_i other
      rcases adds.get?_eq_some found with ⟨last, -⟩ | found
      · exact absurd last other
      · exact stamped.stamp found free

/-- Stamping the standard library, which has no properties yet. -/
theorem Stamped.stampLibrary {r' : Registry} {files : FileTree} {h : Handle}
    (stamped : r.Stamped (fun k => if k = h then some [] else own k) entries Unstamped)
    (call : r.stamp files h Startup.libraryName false false = .ok r') :
    r'.Stamped (fun k => if k = h then some Startup.libraryStamp else own k) entries
      Unstamped := by
  obtain ⟨properties, m, properties_eq, found, rfl⟩ := stamp_eq_ok.1 call
  cases properties_eq
  have plain : m.importMeta = [] := stamped.same found (if_pos rfl)
  refine ⟨?_, ?_, ?_, ?_⟩
  · intro k p given
    rw [count_update]
    split at given
    · rename_i same
      exact stamped.known (if_pos same)
    · rename_i other
      exact stamped.known ((if_neg other).trans given)
  · intro k mem
    rw [count_update]
    obtain ⟨below, free⟩ := stamped.entry mem
    split at free
    · cases free
    · rename_i other
      exact ⟨below, (if_neg other).trans free⟩
  · intro k n p after given
    rw [get?_update] at after
    split at given
    · rename_i same
      cases given
      rw [if_pos same, same, found] at after
      cases after
      dsimp only
      rw [plain]
      rfl
    · rename_i other
      rw [if_neg other] at after
      exact stamped.same after ((if_neg other).trans given)
  · intro k n after free
    rw [get?_update] at after
    split at free
    · cases free
    · rename_i other
      rw [if_neg other] at after
      exact stamped.stamp after ((if_neg other).trans free)

/-- The modules that say that they are main are the entries, if no module says so of its own. -/
theorem Stamped.main_iff (stamped : r.Stamped own entries Unstamped)
    (none : ∀ {k p}, own k = some p → p.lookup "main" ≠ some (.flag true)) (k : Handle) :
    (∃ m, r.get? k = some m ∧ m.main? = some (.flag true)) ↔ k ∈ entries := by
  constructor
  · rintro ⟨m, found, main⟩
    cases given : own k with
    | some p =>
      unfold Registered.main? at main
      rw [stamped.same found given] at main
      exact absurd main (none given)
    | none =>
      obtain ⟨-, flag⟩ | ⟨bare, -⟩ := stamped.stamp found given
      · rw [flag] at main
        simpa using main
      · unfold Registered.main? at main
        rw [bare] at main
        cases main
  · intro mem
    obtain ⟨below, free⟩ := stamped.entry mem
    obtain ⟨m, found⟩ : ∃ m, r.get? k = some m := ⟨_, List.getElem?_eq_getElem below⟩
    refine ⟨m, found, ?_⟩
    obtain ⟨-, flag⟩ | ⟨-, other, -⟩ := stamped.stamp found free
    · rw [flag, decide_eq_true mem]
    · exact absurd mem (of_decide_eq_false other)

end Registry

-- ---------------------------------------------------------------------------
-- Loading and linking
-- ---------------------------------------------------------------------------

namespace Loader

open Registry

variable {files : FileTree} {loader : Loader} {own : Handle → Option ImportMeta}
  {entries : List Handle} {Unstamped : Module → Prop}

/-- Loading adds an entry if a module is loaded as the main module. -/
theorem stamped_loadModule (named : files.Named)
    (unstamped : ∀ m, loader.Unstampable files m → Unstamped m) {location : String} {main : Bool}
    {r r' : Registry} {requests requests' : Requests} {result : Except LoadError Handle}
    (call : loader.loadModule files location main r requests = (result, r', requests'))
    (stamped : r.Stamped own entries Unstamped) :
    r'.Stamped own (entries ++ if main then result.toOption.toList else []) Unstamped := by
  have none : ∀ e, (if main then (Except.error e : Except LoadError Handle).toOption.toList
      else []) = [] := fun e => ite_self _
  cases loadModule_loads call with
  | refused _ =>
    rw [none, List.append_nil]
    exact stamped
  | @left m cause holds file path =>
    rw [none]
    refine stamped.adds (adds_register r m) [] (by simp) (Or.inr ⟨rfl, by simp, unstamped m ?_⟩)
    have name := holds.name
    exact ⟨name.symm ▸ holds, name.symm ▸ file, cause, name.symm ▸ path⟩
  | @added m properties holds stamp =>
    let n : Registered := ⟨m, .compiled, [], properties⟩
    have adds : r.Adds n (r.add n) := rfl
    rw [← holds.name] at stamp
    have told := Registered.addressed_of_stampOf (m := n) named stamp
    cases main with
    | true => exact stamped.adds adds [r.count] (by simp) (Or.inl (by simpa using told))
    | false => exact stamped.adds adds [] (by simp) (Or.inl (by simpa using told))

/-- Linking and evaluation load no entries. -/
theorem stamped_kept (named : files.Named)
    (unstamped : ∀ m, loader.Unstampable files m → Unstamped m) :
    Linking.Kept (loader.host files) (Stamped own entries Unstamped) := by
  refine ⟨?_, ?_, ?_⟩
  · intro name r state _ stamped
    have call : loader.loadModule files name false r state =
        ((loader.host files).load name r state) :=
      rfl
    have after := stamped_loadModule named unstamped call stamped
    rw [if_neg Bool.false_ne_true, List.append_nil] at after
    exact after
  · exact fun r h status stamped => stamped.update h (fun _ => rfl) fun _ => rfl
  · exact fun r h dependencies stamped => stamped.update h (fun _ => rfl) fun _ => rfl

end Loader

-- ---------------------------------------------------------------------------
-- Startup
-- ---------------------------------------------------------------------------

namespace Startup

open Registry

variable {files : FileTree} {loader : Loader} {startup : Startup} {depth : Nat}

/-- The properties of the built-in modules. -/
def builtin (bundle library : Handle) : Handle → Option ImportMeta :=
  fun k => if k = library then some libraryStamp else if k = bundle then some [] else none

theorem builtin_not_main {bundle library k : Handle} {p : ImportMeta}
    (given : builtin bundle library k = some p) : p.lookup "main" ≠ some (.flag true) := by
  unfold builtin at given
  split at given
  · cases given
    decide
  · split at given
    · cases given
      decide
    · cases given

theorem stamped_addGlobals (named : files.Named) {s : Linking Loader.Requests} {bundle : Handle}
    (call : startup.addGlobalsWithin depth loader files ⟨.empty, []⟩ = some (.ok bundle, s)) :
    s.registry.Stamped (fun k => if k = bundle then some [] else none) []
      (loader.Unstampable files) := by
  obtain ⟨m, rfl, run⟩ := addGlobalsWithin_eq_ok call
  exact (Loader.stamped_kept named fun _ h => h).evaluate run ((Stamped.empty _).register m)

/-- The library is stamped, whether or not it is linked before. -/
theorem stamped_addLibrary (named : files.Named) {s s' : Linking Loader.Requests}
    {bundle library : Handle}
    (call : startup.addLibraryWithin depth loader files s = some (.ok library, s'))
    (stamped : s.registry.Stamped (fun k => if k = bundle then some [] else none) []
      (loader.Unstampable files)) :
    s'.registry.Stamped (builtin bundle library) [] (loader.Unstampable files) := by
  have kept {own : Handle → Option ImportMeta} :
      Linking.Kept (loader.host files) (Stamped own [] (loader.Unstampable files)) :=
    Loader.stamped_kept named fun _ h => h
  obtain ⟨m, rfl, ⟨t, r, linked, stamp, rfl⟩ | ⟨r, stamp, run⟩⟩ := addLibraryWithin_eq_ok call
  · have run : Linking.Links (loader.host files) _ _ _ t := ⟨depth, linked⟩
    exact (kept.link run (stamped.register m)).stampLibrary stamp
  · exact kept.evaluate run ((stamped.register m).stampLibrary stamp)

end Startup

-- ---------------------------------------------------------------------------
-- Runs
-- ---------------------------------------------------------------------------

namespace Environment

open Registry

variable {files : FileTree} {loader : Loader} {startup : Startup} {env env' : Environment}
  {depth : Nat}

/-- The handle under which an entry module is loaded, if it can be. -/
def entry? (env : Environment) (files : FileTree) (path : String) : Option Handle :=
  (env.loader.loadModule files (entryLocation files path) true env.registry
    env.linking.host).1.toOption

/-- Running entry modules one after the other, each on a tree of files, whether or not the runs
succeed, leads from one environment to another and loads these entry modules. -/
inductive Runs (env : Environment) : List FileTree → List Handle → Environment → Prop where
  | refl : Runs env [] [] env
  | run {trees : List FileTree} {entries : List Handle} {env' env'' : Environment} {depth : Nat}
      {files : FileTree} {path : String} {result : Except LoadError Handle} :
      Runs env trees entries env' → files.Named →
      env'.runMainWithin depth files path = some (result, env'') →
      Runs env (trees ++ [files]) (entries ++ (env'.entry? files path).toList) env''

theorem Runs.loader_eq {trees : List FileTree} {entries : List Handle}
    (runs : env.Runs trees entries env') : env'.loader = env.loader := by
  induction runs with
  | refl => rfl
  | run before named ran ih =>
    obtain ⟨_, _, _, -, same, -⟩ := runMainWithin_eq_some ran
    exact same.trans ih

/-- A module could not be stamped in one of the trees. -/
def UnstampedIn (loader : Loader) (trees : List FileTree) (m : Module) : Prop :=
  ∃ files ∈ trees, loader.Unstampable files m

/-- A run adds its entry module to the entries, however it ends. -/
theorem stamped_runMainWithin (named : files.Named) {own : Handle → Option ImportMeta}
    {entries : List Handle} {Unstamped : Module → Prop}
    (unstamped : ∀ m, env.loader.Unstampable files m → Unstamped m) {path : String}
    {result : Except LoadError Handle}
    (ran : env.runMainWithin depth files path = some (result, env'))
    (stamped : env.registry.Stamped own entries Unstamped) :
    env'.registry.Stamped own (entries ++ (env.entry? files path).toList) Unstamped := by
  obtain ⟨loaded, r, requests, load, -, ended⟩ := runMainWithin_eq_some ran
  have entry : env.entry? files path = loaded.toOption := by
    unfold entry?
    rw [load]
  have after := Loader.stamped_loadModule named unstamped load stamped
  rw [if_pos rfl, ← entry] at after
  unfold Environment.registry
  rcases ended with ⟨e, -, -, linking⟩ | ⟨h, outcome, -, run, -⟩
  · rw [linking]
    exact after
  · exact (Loader.stamped_kept named unstamped).evaluate run after

theorem stamped_runs {own : Handle → Option ImportMeta} {trees : List FileTree}
    {entries : List Handle} (runs : env.Runs trees entries env')
    (stamped : env.registry.Stamped own [] (env.loader.Unstampable files)) :
    env'.registry.Stamped own entries (UnstampedIn env.loader (files :: trees)) := by
  induction runs with
  | refl => exact stamped.mono fun m unstamped => ⟨files, List.mem_cons_self, unstamped⟩
  | @run trees _ _ _ _ files' _ _ before named ran ih =>
    have same := before.loader_eq
    refine stamped_runMainWithin named (fun m unstamped => ?_) ran (ih.mono fun m => ?_)
    · rw [same] at unstamped
      exact ⟨files', by simp, unstamped⟩
    · rintro ⟨other, mem, unstamped⟩
      exact ⟨other, List.mem_append_left [files'] mem, unstamped⟩

/-- A run that succeeds answers with the handle of its entry module. -/
theorem entry?_of_runMainWithin {path : String} {h : Handle}
    (ran : env.runMainWithin depth files path = some (.ok h, env')) :
    env.entry? files path = some h := by
  obtain ⟨r, requests, s, load, -, -⟩ := runMainWithin_eq_ok.1 ran
  unfold entry?
  rw [load]
  rfl

/-- After a runtime has started and run any entry modules, every module but the bundle tells an
address and whether it is main, and those that are main are the entry modules loaded; every module
but the bundle and the library tells the address of its location and its parts. The exception is a
module that has no properties at all, since it comes from a file that had no real path when it was
loaded; there is none where every location of the trees can be spelled to the system. After one run
that succeeds the module it answers with is main and no other. -/
theorem runs_stamped (named : files.Named)
    (started : startWithin depth loader startup files = some (.ok env)) {trees : List FileTree}
    {entries : List Handle} (runs : env.Runs trees entries env') :
    ∃ bundle library s,
      startup.addGlobalsWithin depth loader files ⟨.empty, []⟩ = some (.ok bundle, s) ∧
      startup.addLibraryWithin depth loader files s = some (.ok library, env.linking) ∧
      (∀ k m, env'.registry.get? k = some m → k ≠ bundle →
        ((∃ url, m.url? = some url) ∧ m.main? = some (.flag (decide (k ∈ entries))) ∧
          (k ≠ library → m.Addressed)) ∨
        (m.importMeta = [] ∧ k ∉ entries ∧ k ≠ library ∧
          UnstampedIn loader (files :: trees) m.module)) ∧
      ((∀ files' ∈ files :: trees, files'.Spelled) →
        ∀ k m, env'.registry.get? k = some m → k ≠ bundle → m.importMeta ≠ []) ∧
      (∀ k, (∃ m, env'.registry.get? k = some m ∧ m.main? = some (.flag true)) ↔ k ∈ entries) ∧
      ∀ {depth' : Nat} {files' : FileTree} {path h env''}, files'.Named →
        env.runMainWithin depth' files' path = some (.ok h, env'') →
        ∀ k, (∃ m, env''.registry.get? k = some m ∧ m.main? = some (.flag true)) ↔ k = h := by
  obtain ⟨bundle, library, s, globals, builtin, rfl⟩ := startWithin_eq_ok started
  have fresh := Startup.stamped_addLibrary named builtin (Startup.stamped_addGlobals named globals)
  have stamped := stamped_runs runs fresh
  have told : ∀ k m, env'.registry.get? k = some m → k ≠ bundle →
      ((∃ url, m.url? = some url) ∧ m.main? = some (.flag (decide (k ∈ entries))) ∧
        (k ≠ library → m.Addressed)) ∨
      (m.importMeta = [] ∧ k ∉ entries ∧ k ≠ library ∧
        UnstampedIn env.loader (files :: trees) m.module) := by
    intro k m found other
    by_cases same : k = library
    · -- the library has its own stamp, and it is no entry
      have given : Startup.builtin bundle library k = some Startup.libraryStamp := if_pos same
      have properties := stamped.same found given
      have ordinary : k ∉ entries := by
        intro mem
        rw [(stamped.entry mem).2] at given
        cases given
      unfold Registered.url? Registered.main?
      rw [properties, decide_eq_false ordinary]
      exact Or.inl ⟨⟨_, rfl⟩, rfl, fun h => absurd same h⟩
    · have free : Startup.builtin bundle library k = none := (if_neg same).trans (if_neg other)
      obtain ⟨addressed, main⟩ | ⟨bare, main, unstamped⟩ := stamped.stamp found free
      · exact Or.inl ⟨addressed.url, main, fun _ => addressed⟩
      · exact Or.inr ⟨bare, of_decide_eq_false main, same, unstamped⟩
  refine ⟨bundle, library, s, globals, builtin, told, ?_, stamped.main_iff Startup.builtin_not_main,
    ?_⟩
  · intro spelled k m found other bare
    obtain ⟨⟨url, address⟩, -⟩ | ⟨-, -, -, files', mem, unstamped⟩ := told k m found other
    · unfold Registered.url? at address
      rw [bare] at address
      cases address
    · exact (spelled files' mem).stampable unstamped
  · intro depth' files' path h env'' named' ran k
    have unconditional : env.registry.Stamped _ [] fun _ => True := fresh.mono fun _ _ => trivial
    have once := stamped_runMainWithin named' (fun _ _ => trivial) ran unconditional
    rw [entry?_of_runMainWithin ran] at once
    rw [once.main_iff Startup.builtin_not_main]
    exact List.mem_singleton

/-- The entry module `a.js` imports itself as `./a.js`: the module of the second name is not main. -/
theorem runs_stamped_self_import :
    selfImporting.Named ∧
      start ⟨[], .offline⟩ ⟨.source, [], []⟩ selfImporting = some (.ok emptyRuntime) ∧
      ∃ env', emptyRuntime.Runs [selfImporting] [2] env' ∧ env'.registry.count = 4 ∧
        ∀ k, (∃ m, env'.registry.get? k = some m ∧ m.main? = some (.flag true)) ↔ k = 2 := by
  have named : selfImporting.Named := by decide
  have started := start_empty selfImporting
  have ran := runMainWithin_selfImporting 0
  have runs := Runs.run .refl named ran
  rw [entry?_of_runMainWithin ran] at runs
  refine ⟨named, started, _, runs, rfl, ?_⟩
  obtain ⟨_, _, _, -, -, -, -, main, -⟩ := runs_stamped named started runs
  intro k
  exact (main k).trans List.mem_singleton

/-- A run that fails since the entry module cannot be stamped, and leaves it registered without an
address. -/
theorem runMain_leaves_deep :
    (FileTree.deep 2047).Proper ∧
      start ⟨[], .offline⟩ ⟨.source, [], []⟩ (.deep 2047) = some (.ok emptyRuntime) ∧
      ∃ env' m, emptyRuntime.runMain (.deep 2047) "./f.js" =
          some (.error (.realPath "./f.js" .nameTooLong), env') ∧
        env'.registry.get? 2 = some m ∧ m.module.name = "./f.js" ∧ m.url? = none ∧
        m.main? = none := by
  have location : entryLocation (.deep 2047) "./f.js" = "./f.js" :=
    entryLocation_of_find (FileTree.find_deep 2047) rfl
  let left : Module := ⟨"./f.js", .empty, ⟨[], []⟩⟩
  have load := Loader.loadModule_deep emptyRuntime.loader true emptyRuntime.linking.registry
    emptyRuntime.linking.host
  refine ⟨FileTree.deep_proper 2047, start_empty _,
    ⟨emptyRuntime.loader, ⟨(emptyRuntime.registry.register left).1, []⟩⟩,
    ⟨left, .compiled, [], []⟩, ?_, rfl, rfl, rfl, rfl⟩
  unfold runMain runMainWithin
  rw [location, load]
  rfl

end Environment

end Esm
