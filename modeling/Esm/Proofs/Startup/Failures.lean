-- SUMMARY: A run fails for the first location in depth-first order that cannot be loaded, and with the error of loading it.
import Esm.Proofs.Loader.Found
import Esm.Proofs.Registry.Retry
import Esm.Proofs.Startup.Stamps
import Esm.Proofs.Startup.Unfailing

/-!
# Failures of a run

Running an entry module loads it and whatever it imports, directly or not, until something cannot be
loaded. The error of the run is the one that loading gives for that location, however deep in the
imports it was found, and which location it is can be told from the order of imports: nothing behind
it is loaded, and the modules of all that is met before it are registered.

Modules that are linked are not gone through again. As long as these import only what is linked as
well, which is so if no run has failed, the location is the first in depth-first order of all
imports. But a run that fails may leave a module linked that imports, on a cycle, one that is not.
What cannot be loaded behind that one is not met again by a later run, which may then fail for
another location, or not at all.
-/

namespace Esm

namespace Environment

open Registry

variable {files : FileTree} {env env' : Environment} {path entry : String}

-- ---------------------------------------------------------------------------
-- The index
-- ---------------------------------------------------------------------------

theorem indexed_loadModule {loader : Loader} {location : String} {main : Bool} {r r' : Registry}
    {requests requests' : Loader.Requests} {result : Except LoadError Handle}
    (call : loader.loadModule files location main r requests = (result, r', requests'))
    (indexed : r.Indexed) : r'.Indexed := by
  cases Loader.loadModule_loads call with
  | refused _ => exact indexed
  | left _ _ _ => exact indexed.register _
  | added _ _ => exact indexed.add _

theorem indexed_kept (loader : Loader) (files : FileTree) :
    Linking.Kept (loader.host files) Registry.Indexed := by
  refine ⟨fun name r state _ indexed => ?_, fun r h _ indexed => indexed.update h fun _ => rfl,
    fun r h _ indexed => indexed.update h fun _ => rfl⟩
  have call : loader.loadModule files name false r state = (loader.host files).load name r state :=
    rfl
  exact indexed_loadModule call indexed

theorem indexed_startWithin {depth : Nat} {loader : Loader} {startup : Startup}
    (started : startWithin depth loader startup files = some (.ok env)) : env.registry.Indexed := by
  have kept := indexed_kept loader files
  obtain ⟨_, _, s, globals, library, -⟩ := startWithin_eq_ok started
  obtain ⟨m, -, run⟩ := Startup.addGlobalsWithin_eq_ok globals
  have before : s.registry.Indexed := kept.evaluate run (Indexed.empty.register m)
  obtain ⟨n, rfl, ⟨t, r, link, stamp, same⟩ | ⟨r, stamp, run⟩⟩ :=
    Startup.addLibraryWithin_eq_ok library
  · have links : Linking.Links (loader.host files) _ _ _ t := ⟨depth, link⟩
    obtain ⟨_, _, -, -, rfl⟩ := stamp_eq_ok.1 stamp
    unfold Environment.registry
    rw [same]
    exact (kept.link links (before.register n)).update _ fun _ => rfl
  · obtain ⟨_, _, -, -, rfl⟩ := stamp_eq_ok.1 stamp
    exact kept.evaluate run ((before.register n).update _ fun _ => rfl)

theorem indexed_runMainWithin {depth : Nat} {result : Except LoadError Handle}
    (ran : env.runMainWithin depth files path = some (result, env'))
    (indexed : env.registry.Indexed) : env'.registry.Indexed := by
  obtain ⟨loaded, r, requests, load, -, ended⟩ := runMainWithin_eq_some ran
  have after := indexed_loadModule load indexed
  unfold Environment.registry
  rcases ended with ⟨e, -, -, linking⟩ | ⟨h, outcome, -, run, -⟩
  · rw [linking]
    exact after
  · exact (indexed_kept env.loader files).evaluate run after

/-- In a runtime that has started the index is in step, whatever entry modules have been run. -/
theorem Runs.indexed {depth : Nat} {loader : Loader} {startup : Startup}
    (started : startWithin depth loader startup files = some (.ok env)) {trees : List FileTree}
    {entries : List Handle} (runs : env.Runs trees entries env') : env'.registry.Indexed := by
  induction runs with
  | refl => exact indexed_startWithin started
  | run _ _ ran ih => exact indexed_runMainWithin ran ih

-- ---------------------------------------------------------------------------
-- Runs
-- ---------------------------------------------------------------------------

/-- The error of linking the entry module is the one of the run. -/
theorem runMainWithin_eq_error {depth : Nat} {h : Handle} {r : Registry}
    {requests : Loader.Requests} {e : LinkError LoadError} {s : Linking Loader.Requests}
    (load : env.loader.loadModule files (entryLocation files path) true env.registry
      env.linking.host = (.ok h, r, requests))
    (run : Linking.evaluate (env.loader.host files) depth h ⟨r, requests⟩ = some (.error e, s)) :
    env.runMainWithin depth files path = some (.error (.ofLink e), { env with linking := s }) := by
  unfold Environment.registry at load
  unfold runMainWithin
  simp only [load, run]
  rfl

/-- The same with a log of the locations that are loaded, each with what came of it. -/
def runLogged (env : Environment) (depth : Nat) (files : FileTree) (path : String) :
    Option (Except LoadError Handle × Environment × Log LoadError) :=
  let entry := entryLocation files path
  let (result, r, requests) := env.loader.loadModule files entry true env.registry env.linking.host
  match result with
  | .error e => some (.error e, { env with linking := ⟨r, requests⟩ }, [(entry, .error e)])
  | .ok h =>
    match Linking.evaluate (env.loader.host files).logged depth h ⟨r, (requests, [])⟩ with
    | none => none
    | some (outcome, s) =>
      some ((outcome.mapError LoadError.ofLink).map fun _ => h,
        { env with linking := ⟨s.registry, s.host.1⟩ }, (entry, .ok h) :: s.host.2)

/-- A run does not notice that a log is kept. -/
theorem runMainWithin_eq_logged (env : Environment) (depth : Nat) (files : FileTree)
    (path : String) :
    env.runMainWithin depth files path =
      (env.runLogged depth files path).map fun x => (x.1, x.2.1) := by
  unfold runMainWithin runLogged
  dsimp only [Environment.registry]
  cases env.loader.loadModule files (entryLocation files path) true env.linking.registry
    env.linking.host with
  | mk result rest =>
    cases result with
    | error e => rfl
    | ok h =>
      dsimp only
      rw [Linking.evaluate_logged]
      cases Linking.evaluate (env.loader.host files).logged depth h ⟨rest.1, (rest.2, [])⟩ with
      | none => rfl
      | some x =>
        obtain ⟨outcome, s⟩ := x
        cases outcome with
        | error e => rfl
        | ok => rfl

-- ---------------------------------------------------------------------------
-- The order of imports
-- ---------------------------------------------------------------------------

/-- What the module of a name imports in a run of the module at `entry`: that module is loaded anew,
what is registered is not, and of anything else it is what its location holds. -/
def importsOf (env : Environment) (files : FileTree) (entry name : String) :
    Option (List String) :=
  if name = entry then
    (env.loader.moduleAt files entry).toOption.map (·.imports (env.loader.names files))
  else
    env.registry.importsOf (env.loader.names files)
      (fun location => (env.loader.moduleAt files location).toOption) name

/-- The names of modules that a run passes over, because they are linked. -/
def passed (env : Environment) (entry : String) : Set String := env.registry.passed \ {entry}

/-- Whether a run has to load the module of a name. -/
def loads (env : Environment) (entry name : String) : Bool :=
  name = entry || (env.registry.find? name).isNone

/-- What is linked imports nothing that is not, the entry module apart. -/
def Closed (env : Environment) (files : FileTree) (entry : String) : Prop :=
  ∀ name ∈ env.passed entry, ∀ more, env.importsOf files entry name = some more →
    ∀ next ∈ more, next = entry ∨ next ∈ env.passed entry

/-- How a run fails: in depth-first order it meets the names `met`, and then a location that cannot
be loaded. -/
structure FailsAt (env : Environment) (files : FileTree) (path : String) (e : LoadError)
    (env' : Environment) (log : Log LoadError) (met : List String) (last : String) : Prop where
  order : DepthFirst (env.importsOf files (entryLocation files path))
    (env.passed (entryLocation files path)) [entryLocation files path] met (some last)
  /-- The error is the one of loading this location, whatever is registered. -/
  error : ∀ main r requests, env.loader.loadModule files last main r requests =
    (.error e, r.leaving (env.loader.leftBy files e), requests ++ Content.requests last)
  /-- That leaves a module behind only if it comes from a file that has no real path. -/
  left : ∀ m, env.loader.leftBy files e = some m → env.loader.Holds files last m ∧
    ∃ cause, files.realPath last = .error cause ∧ e = .realPath last cause
  /-- Nothing else is loaded but what was met and is not registered. -/
  loaded : log.map Prod.fst = met.filter (env.loads (entryLocation files path)) ++ [last]
  requested : env'.linking.host = env.linking.host ++ (log.map Prod.fst).flatMap Content.requests
  registered : ∃ added, List.Forall₂ (env.loader.Holds files)
      (met.filter (env.loads (entryLocation files path))) added ∧
    env'.registry.modules.map (·.module) =
      env.registry.modules.map (·.module) ++ added ++ (env.loader.leftBy files e).toList
  loader : env'.loader = env.loader

/-- An entry module that cannot be loaded is the first location in the order. -/
theorem failsAt_entry {e : LoadError} {r : Registry} {requests : Loader.Requests}
    (refused : env.loader.moduleAt files (entryLocation files path) = .error e)
    (load : env.loader.loadModule files (entryLocation files path) true env.registry
      env.linking.host = (.error e, r, requests)) :
    env.FailsAt files path e { env with linking := ⟨r, requests⟩ }
      [(entryLocation files path, .error e)] [] (entryLocation files path) := by
  rw [Loader.loadModule_of_moduleAt_eq_error refused] at load
  cases load
  refine ⟨.stuck (fun mem => mem.2 rfl) ?_, Loader.loadModule_of_moduleAt_eq_error refused,
    Loader.leftBy_moduleAt refused, rfl, ?_, ?_, rfl⟩
  · unfold Environment.importsOf
    rw [if_pos rfl, refused]
    rfl
  · simp
  · refine ⟨[], .nil, ?_⟩
    rw [List.append_nil]
    exact modules_leaving _ _

section Linking

variable {r : Registry} {m : Module} {properties : ImportMeta}

/-- Once the entry module is registered, what names import can be told from the registry. -/
theorem importsOf_added (indexed : env.registry.Indexed)
    (adds : env.registry.Adds ⟨m, .compiled, [], properties⟩ r)
    (has : env.loader.moduleAt files m.name = .ok m) :
    (r.importsOf (env.loader.names files) fun location =>
      (env.loader.moduleAt files location).toOption) = env.importsOf files m.name := by
  funext name
  unfold Environment.importsOf Registry.importsOf
  rw [adds.find?]
  by_cases same : m.name = name
  · rw [if_pos same, if_pos same.symm]
    simp only [adds.get? env.registry.count, if_true, has]
    rfl
  · rw [if_neg same, if_neg (Ne.symm same)]
    cases known : env.registry.find? name with
    | none => rfl
    | some h =>
      obtain ⟨n, found, -⟩ := indexed.named known
      simp only [adds.get? h, if_neg (Nat.ne_of_lt (get?_eq_some_lt found))]

/-- Of the names that are passed over, that of the entry module is no longer one. -/
theorem passed_added (indexed : env.registry.Indexed)
    (adds : env.registry.Adds ⟨m, .compiled, [], properties⟩ r) :
    r.passed = env.passed m.name := by
  ext name
  unfold Environment.passed Registry.passed
  simp only [Set.mem_sdiff, Set.mem_ofPred_eq, Set.mem_singleton_iff, adds.find?]
  by_cases same : m.name = name
  · rw [if_pos same]
    constructor
    · rintro ⟨h, n, named, found, past⟩
      cases named
      rw [adds.get? env.registry.count, if_pos rfl] at found
      cases found
      exact absurd rfl past
    · rintro ⟨-, other⟩
      exact absurd same.symm other
  · rw [if_neg same]
    have kept : ∀ {h n}, env.registry.find? name = some h →
        (r.get? h = some n ↔ env.registry.get? h = some n) := by
      intro h n named
      obtain ⟨_, found, -⟩ := indexed.named named
      rw [adds.get? h, if_neg (Nat.ne_of_lt (get?_eq_some_lt found))]
    constructor
    · rintro ⟨h, n, named, found, past⟩
      exact ⟨⟨h, n, named, (kept named).1 found, past⟩, Ne.symm same⟩
    · rintro ⟨⟨h, n, named, found, past⟩, -⟩
      exact ⟨h, n, named, (kept named).2 found, past⟩

/-- In the order of a run the entry module comes first. Of the others, those are loaded that are not
registered by then. -/
theorem filter_loads (adds : env.registry.Adds ⟨m, .compiled, [], properties⟩ r)
    {imports : String → Option (List String)} {met : List String} {missing : Option String}
    (order : DepthFirst imports (env.passed m.name) [m.name] met missing)
    (has : imports m.name ≠ none) :
    met.filter (env.loads m.name) =
      m.name :: met.filter fun name => (r.find? name).isNone := by
  cases order with
  | passed mem => exact absurd rfl mem.2
  | stuck _ lacks => exact absurd lacks has
  | @opens _ _ _ _ met _ _ _ order =>
    have own : env.loads m.name m.name = true := by simp [loads]
    have known : ¬ (r.find? m.name).isNone = true := by
      rw [adds.find?, if_pos rfl]
      exact Bool.false_ne_true
    rw [List.filter_cons_of_pos own,
      List.filter_cons_of_neg (p := fun name => (r.find? name).isNone) known]
    refine congrArg (m.name :: ·) (List.filter_congr fun name mem => ?_)
    have other : name ≠ m.name := fun same => (order.of_mem mem).1 (Or.inl same)
    unfold loads
    rw [adds.find?, if_neg (Ne.symm other), decide_eq_false other, Bool.false_or]

/-- If the entry module can be loaded, linking meets what comes after it in the order. -/
theorem failsAt_linking {depth : Nat} {e : LinkError LoadError} {requests : Loader.Requests}
    {s : Linking (Loader.Requests × Log LoadError)} (indexed : env.registry.Indexed)
    (has : env.loader.moduleAt files (entryLocation files path) = .ok m)
    (adds : env.registry.Adds ⟨m, .compiled, [], properties⟩ r)
    (asked : requests = env.linking.host ++ Content.requests (entryLocation files path))
    (run : Linking.link (env.loader.host files).logged depth env.registry.count
      ⟨r, (requests, [])⟩ = some (.error e, s)) :
    ∃ met last, env.FailsAt files path (.ofLink e)
      { env with linking := ⟨s.registry, s.host.1⟩ }
      ((entryLocation files path, .ok env.registry.count) :: s.host.2) met last := by
  have serves := env.loader.host_serves files
  have leaves := env.loader.host_leaves files
  have entry : m.name = entryLocation files path := serves.named has
  rw [← entry] at has asked
  have found : r.get? env.registry.count = some ⟨m, .compiled, [], properties⟩ :=
    (adds.get? _).trans (if_pos rfl)
  have named : r.find? m.name = some env.registry.count := by
    rw [adds.find?, if_pos rfl]
  -- but for what is left behind, it comes to what it comes to where nothing is
  rw [Linking.link_atomic leaves.logged, Host.atomic_logged] at run
  obtain ⟨⟨result, t⟩, run', same⟩ := Option.map_eq_some_iff.1 run
  obtain ⟨rfl, rfl⟩ := Prod.mk.inj same
  obtain ⟨met, missing, whole, loaded, served, -, failed⟩ :=
    Linking.Links.depthFirst serves (adds.indexed indexed) found named rfl ⟨depth, run'⟩
  obtain ⟨last, cause, rfl, rfl, refused⟩ := failed _ rfl
  have order := whole
  rw [importsOf_added indexed adds has, passed_added indexed adds] at order
  have own : env.importsOf files m.name m.name ≠ none := by
    unfold Environment.importsOf
    rw [if_pos rfl, has]
    exact nofun
  have first := filter_loads adds order own
  obtain ⟨added, holds, registered⟩ := served.added whole loaded refused
  refine ⟨met, last, ?_, Loader.loadModule_of_moduleAt_eq_error refused,
    Loader.leftBy_moduleAt refused, ?_, ?_, ?_, rfl⟩
  · rw [← entry]
    exact order
  · rw [← entry, first]
    exact congrArg (m.name :: ·) loaded
  · rw [List.map_cons, List.flatMap_cons, ← entry, ← List.append_assoc, ← asked]
    show t.host.1 = _
    rw [served.host, List.foldl_append_eq_append, List.flatMap_def]
    rfl
  · refine ⟨m :: added, ?_, ?_⟩
    · rw [← entry, first]
      exact .cons (Loader.moduleAt_eq_ok.1 has).1
        (holds.imp fun _ _ has => (Loader.moduleAt_eq_ok.1 has).1)
    · refine (modules_leaving t.registry (env.loader.leftBy files cause)).trans ?_
      rw [registered, show r = env.registry.add _ from adds]
      simp [Registry.add]
      rfl

end Linking

/-- A run that fails has loaded its entry module, or has failed to. -/
theorem runLogged_fails {depth : Nat} {e : LoadError} {log : Log LoadError}
    (indexed : env.registry.Indexed)
    (ran : env.runLogged depth files path = some (.error e, env', log)) :
    ∃ met last, env.FailsAt files path e env' log met last := by
  unfold runLogged at ran
  cases has : env.loader.moduleAt files (entryLocation files path) with
  | error e₀ =>
    have load := Loader.loadModule_of_moduleAt_eq_error has true env.registry env.linking.host
    simp only [load] at ran
    cases ran
    exact ⟨[], _, failsAt_entry has load⟩
  | ok m =>
    obtain ⟨properties, load⟩ :=
      Loader.loadModule_of_moduleAt has true env.registry env.linking.host
    simp only [load] at ran
    split at ran
    · cases ran
    · rename_i outcome s run
      obtain ⟨t, link, after⟩ := Linking.evaluate_eq run
      cases outcome with
      | ok => cases ran
      | error e' =>
        have same : s = t := after
        cases ran
        rw [same]
        exact failsAt_linking indexed has rfl rfl link

/-- A module that is passed over is registered, and imports what it did. -/
theorem importsOf_passed {name : String} (mem : name ∈ env.passed entry) :
    ∃ h m, env.registry.get? h = some m ∧
      env.importsOf files entry name = some (m.module.imports (env.loader.names files)) := by
  obtain ⟨⟨h, m, named, found, -⟩, other⟩ := mem
  have other : name ≠ entry := other
  refine ⟨h, m, found, ?_⟩
  unfold Environment.importsOf Registry.importsOf
  rw [if_neg other, named]
  simp only [found, Option.map_some]

/-- What is linked may be gone through once more, if it imports only what is linked: the run fails
for the same location. -/
theorem FailsAt.closed {e : LoadError} {log : Log LoadError} {met : List String} {last : String}
    (fails : env.FailsAt files path e env' log met last) (indexed : env.registry.Indexed)
    (closed : env.Closed files (entryLocation files path)) :
    ∃ all, DepthFirst (env.importsOf files (entryLocation files path)) ∅
      [entryLocation files path] all (some last) ∧ met.Sublist all := by
  refine fails.order.of_closed_root (indexed.finite_passed.subset Set.sdiff_subset) ?_
    fun mem => mem.2 rfl
  intro name mem
  obtain ⟨h, m, -, has⟩ := importsOf_passed mem
  exact ⟨_, has, closed name mem _ has⟩

/-- As long as no run has failed, what is linked imports only what is linked. -/
theorem Unfailing.closed {loader : Loader} {startup : Startup}
    (unfailing : Unfailing loader startup files env) (entry : String) :
    env.Closed files entry := by
  have whole := unfailing.whole
  rw [← unfailing.loader_eq] at whole
  intro name mem more has next there
  obtain ⟨h, m, found, has'⟩ := importsOf_passed mem
  cases has.symm.trans has'
  obtain ⟨d, named⟩ := whole.registered found next there
  obtain ⟨n, found', -⟩ := whole.indexed.named named
  have past : n.status ≠ .compiled := by
    rcases whole.linked found' with status | status <;> rw [status] <;> exact nofun
  by_cases same : next = entry
  · exact Or.inl same
  · exact Or.inr ⟨⟨d, n, named, found', past⟩, same⟩

-- ---------------------------------------------------------------------------
-- Two runs that fail
-- ---------------------------------------------------------------------------

/-- Three files in the current directory: `a` imports `b` and `c`, `b` imports `a`, and `s` imports
`b` and `d`. There is neither `c` nor `d`. -/
def stray : FileTree :=
  ⟨[(["w"], .directory), (["w", "a"], .file (Encoding.utf8 "import'b';import'c'")),
    (["w", "b"], .file (Encoding.utf8 "import'a'")),
    (["w", "s"], .file (Encoding.utf8 "import'b';import'd'"))], ["w"]⟩

/-- The module of a file that imports `a`. -/
def importing (name : String) : Module :=
  ⟨name, ⟨["a"], [], []⟩, ⟨["import", "'a'"], [⟨.identifier, 0⟩, ⟨.string, 1⟩]⟩⟩

/-- The module of a file that imports `b` and another. -/
def importingBoth (name other : String) : Module :=
  ⟨name, ⟨["b", other], [], []⟩, ⟨["import", "'b'", ";", "'" ++ other ++ "'"],
    [⟨.identifier, 0⟩, ⟨.string, 1⟩, ⟨.punctuator, 2⟩, ⟨.identifier, 0⟩, ⟨.string, 3⟩]⟩⟩

/-- The empty runtime after `a` was run: `b` is linked to `a`, which is not linked. -/
def strayed (first second : ImportMeta) : Environment :=
  ⟨emptyRuntime.loader, ⟨(emptyRuntime.registry.add ⟨importingBoth "a" "c", .compiled, [], first⟩).add
    ⟨importing "b", .linked, [2], second⟩, []⟩⟩

/-- The file `s` is compiled. For the other two see `compile_import` and `compile_imports`. -/
private theorem compile_strayed (name : String) : Module.compile "import'b';import'd'" name =
    .ok (importingBoth name "d") := by
  have source : Scanner.ofSource "import'b';import'd'" =
      ⟨"import".toList ++ '\'' :: ("b".toList ++ '\'' :: ';' ::
        ("import".toList ++ '\'' :: ("d".toList ++ '\'' :: []))), 0, none⟩ := rfl
  have tokens : tokenize "import'b';import'd'" =
      .ok [⟨.identifier, 0, "import"⟩, ⟨.string, 6, "'b'"⟩, ⟨.punctuator, 9, ";"⟩,
        ⟨.identifier, 10, "import"⟩, ⟨.string, 16, "'d'"⟩] := by
    unfold tokenize
    rw [source, Scanner.tokens_of_next (Scanner.next_import (by decide) _ _ _),
      Scanner.tokens_of_next (Scanner.next_string (by decide) _ _ _),
      Scanner.tokens_of_next (Scanner.next_mark (by decide) (by decide) _ _),
      Scanner.tokens_of_next (Scanner.next_import (by decide) _ _ _),
      Scanner.tokens_of_next (Scanner.next_string (by decide) _ _ _), Scanner.tokens_nil]
    rfl
  exact Module.compile_eq_ok.2 ⟨_, _, tokens, Interface.eq_ok_of_toOption (by decide +kernel), rfl⟩

/-- No library has any of these names. -/
private theorem names_stray {name : String} (h : name ∈ ["a", "b", "c", "d"]) (base : String) :
    emptyRuntime.loader.names stray base name = name := by
  refine Loader.resolve_bare ?_ ?_ base
  · revert name
    decide +kernel
  · simp only [List.mem_cons, List.not_mem_nil, or_false] at h
    rcases h with rfl | rfl | rfl | rfl <;> rfl

/-- A file of `stray` holds what its text is compiled to. -/
private theorem moduleAt_stray {name text : String} {m : Module}
    (found : stray.find name = .ok (["w", name], .file (Encoding.utf8 text)))
    (plain : Path.extension name = none) (offWeb : Specifier.isUrl name = false)
    (noNul : '\x00' ∉ text.toList) (compiled : Module.compile text name = .ok m) :
    emptyRuntime.loader.moduleAt stray name = .ok m := by
  have wrapped : Content.wrapped name text = text := by
    unfold Content.wrapped
    rw [plain]
    rfl
  have read : Content.readText stray name = .ok text := by
    unfold Content.readText
    simp only [FileTree.read_of_find found, Interface.mapError_ok, bind, Except.bind,
      Encoding.ofUtf8?_utf8]
  have spelled : stray.Spelled := .ofEntries (.ofEntries (by decide) (by decide)) (by decide)
  refine Loader.moduleAt_eq_ok.2 ⟨?_, fun _ => ⟨_, spelled.realPath_of_find found⟩⟩
  refine (Loader.holds_iff offWeb).2 ⟨text, read, ?_, ?_, ?_⟩
  · rw [plain]
    exact nofun
  · rw [wrapped]
    exact noNul
  · rw [wrapped]
    exact compiled

private theorem found_a :
    stray.find "a" = .ok (["w", "a"], .file (Encoding.utf8 "import'b';import'c'")) :=
  FileTree.find_file rfl (by rfl) (by decide) rfl

private theorem found_s :
    stray.find "s" = .ok (["w", "s"], .file (Encoding.utf8 "import'b';import'd'")) :=
  FileTree.find_file rfl (by rfl) (by decide) rfl

private theorem moduleAt_a :
    emptyRuntime.loader.moduleAt stray "a" = .ok (importingBoth "a" "c") :=
  moduleAt_stray found_a (by decide +kernel) (by decide +kernel) (by decide)
    (compile_imports "a")

private theorem moduleAt_b : emptyRuntime.loader.moduleAt stray "b" = .ok (importing "b") :=
  moduleAt_stray (FileTree.find_file rfl (by rfl) (by decide) rfl) (by decide +kernel)
    (by decide +kernel) (by decide) (compile_import "b")

private theorem moduleAt_s :
    emptyRuntime.loader.moduleAt stray "s" = .ok (importingBoth "s" "d") :=
  moduleAt_stray found_s (by decide +kernel) (by decide +kernel) (by decide)
    (compile_strayed "s")

private theorem moduleAt_missing {name : String} (missing : stray.find name = .error .notFound)
    (plain : Path.extension name = none) (offWeb : Specifier.isUrl name = false) :
    emptyRuntime.loader.moduleAt stray name = .error (.notFound name) := by
  have script : Path.extension name ≠ some "so" := by
    rw [plain]
    exact nofun
  have unread : Content.readText stray name = .error (.notFound name) := by
    unfold Content.readText FileTree.read
    rw [missing]
    rfl
  exact Loader.moduleAt_eq_error.2
    (Or.inl (Loader.compiledAt_unread offWeb script unread emptyRuntime.loader))

private theorem moduleAt_c : emptyRuntime.loader.moduleAt stray "c" = .error (.notFound "c") :=
  moduleAt_missing (FileTree.find_absent rfl (by rfl) (by decide) rfl) (by decide +kernel)
    (by decide +kernel)

private theorem moduleAt_d : emptyRuntime.loader.moduleAt stray "d" = .error (.notFound "d") :=
  moduleAt_missing (FileTree.find_absent rfl (by rfl) (by decide) rfl) (by decide +kernel)
    (by decide +kernel)

private theorem loadModule_stray {name : String} {m : Module}
    (has : emptyRuntime.loader.moduleAt stray name = .ok m)
    (none : Content.requests name = []) (main : Bool) (r : Registry) :
    ∃ properties, emptyRuntime.loader.loadModule stray name main r [] =
      (.ok r.count, r.add ⟨m, .compiled, [], properties⟩, []) := by
  obtain ⟨properties, load⟩ := Loader.loadModule_of_moduleAt has main r []
  rw [none] at load
  exact ⟨properties, load⟩

private theorem ask_stray {base name : String} (h : name ∈ ["a", "b", "c", "d"]) :
    (emptyRuntime.loader.host stray).ask [] base name = (name, []) :=
  Prod.ext (names_stray h base) rfl

private theorem require_missing {base name : String} (h : name ∈ ["a", "b", "c", "d"])
    (refused : emptyRuntime.loader.moduleAt stray name = .error (.notFound name))
    (none : Content.requests name = []) {r : Registry} (absent : r.find? name = .none) :
    Linking.require (emptyRuntime.loader.host stray) base name ⟨r, []⟩ =
      (.error (.notFound name), ⟨r, []⟩) := by
  have load := Loader.loadModule_of_moduleAt_eq_error refused false r []
  rw [none] at load
  exact Linking.require_loaded (ask_stray h) absent load

/-- The first run links `b` while it links `a`, and then fails for `c`. -/
theorem runMainWithin_stray {depth : Nat} (le : 2 ≤ depth) :
    ∃ first second, emptyRuntime.runMainWithin depth stray "a" =
      some (.error (.notFound "c"), strayed first second) := by
  let host := emptyRuntime.loader.host stray
  let before := emptyRuntime.registry
  obtain ⟨first, entry⟩ := loadModule_stray moduleAt_a (by decide +kernel) true before
  let s (status : Status) : Linking Loader.Requests :=
    ⟨before.add ⟨importingBoth "a" "c", status, [], first⟩, []⟩
  obtain ⟨second, loaded⟩ :=
    loadModule_stray moduleAt_b (by decide +kernel) false (s .linking).registry
  let t (status status' : Status) (dependencies : List Handle) : Linking Loader.Requests :=
    ⟨(s status).registry.add ⟨importing "b", status', dependencies, second⟩, []⟩
  have inner : Linking.link host 1 3 (t .linking .compiled []) =
      some (.ok (), t .linking .linked [2]) := by
    have required : Linking.require host "b" "a" (t .linking .linking []) = (.ok 2, _) :=
      Linking.require_registered (ask_stray (by decide)) (by rfl)
    have settled : Linking.link host 0 2 (t .linking .linking []) = some (.ok (), _) :=
      Linking.link_settled (m := ⟨importingBoth "a" "c", .linking, [], first⟩) rfl
        fun same => by cases same
    exact Linking.link_done (m := ⟨importing "b", .compiled, [], second⟩) rfl rfl
      (Linking.linkRequests_cons required settled rfl)
  have requests : Linking.linkRequests host (Linking.link host 1) "a" ["b", "c"] (s .linking) =
      some (.error (.host (.notFound "c")), t .linking .linked [2]) := by
    have required : Linking.require host "a" "b" (s .linking) = (.ok 3, t .linking .compiled []) :=
      Linking.require_loaded (ask_stray (by decide)) (by rfl) loaded
    have missing : Linking.require host "a" "c" (t .linking .linked [2]) = _ :=
      require_missing (by decide) moduleAt_c (by decide +kernel) rfl
    exact Linking.linkRequests_stopped required inner (Linking.linkRequests_missing missing)
  have fails : Linking.link host 2 2 (s .compiled) =
      some (.error (.host (.notFound "c")), t .compiled .linked [2]) :=
    Linking.link_failed (t := t .linking .linked [2])
      (m := ⟨importingBoth "a" "c", .compiled, [], first⟩) rfl rfl requests
  have evaluated : Linking.evaluate host depth 2 (s .compiled) =
      some (.error (.host (.notFound "c")), t .compiled .linked [2]) := by
    unfold Linking.evaluate
    rw [Linking.link_mono le fails]
  have location : entryLocation stray "a" = "a" :=
    entryLocation_of_find found_a rfl
  exact ⟨first, second, runMainWithin_eq_error (by rw [location]; exact entry) evaluated⟩

/-- The second run finds `b` linked and fails for `d`. -/
theorem runMainWithin_strayed {depth : Nat} (le : 1 ≤ depth) (first second : ImportMeta) :
    ∃ env, (strayed first second).runMainWithin depth stray "s" =
      some (.error (.notFound "d"), env) := by
  let host := emptyRuntime.loader.host stray
  let before := (strayed first second).registry
  obtain ⟨third, entry⟩ := loadModule_stray moduleAt_s (by decide +kernel) true before
  let s (status : Status) : Linking Loader.Requests :=
    ⟨before.add ⟨importingBoth "s" "d", status, [], third⟩, []⟩
  have requests : Linking.linkRequests host (Linking.link host 0) "s" ["b", "d"] (s .linking) =
      some (.error (.host (.notFound "d")), s .linking) := by
    have required : Linking.require host "s" "b" (s .linking) = (.ok 3, _) :=
      Linking.require_registered (ask_stray (by decide)) (by rfl)
    have settled : Linking.link host 0 3 (s .linking) = some (.ok (), _) :=
      Linking.link_settled (m := ⟨importing "b", .linked, [2], second⟩) rfl
        fun same => by cases same
    have missing : Linking.require host "s" "d" (s .linking) = _ :=
      require_missing (by decide) moduleAt_d (by decide +kernel) rfl
    exact Linking.linkRequests_stopped required settled (Linking.linkRequests_missing missing)
  have fails : Linking.link host 1 4 (s .compiled) =
      some (.error (.host (.notFound "d")), s .compiled) :=
    Linking.link_failed (t := s .linking)
      (m := ⟨importingBoth "s" "d", .compiled, [], third⟩) rfl rfl requests
  have evaluated : Linking.evaluate host depth 4 (s .compiled) =
      some (.error (.host (.notFound "d")), s .compiled) := by
    unfold Linking.evaluate
    rw [Linking.link_mono le fails]
  have location : entryLocation stray "s" = "s" :=
    entryLocation_of_find found_s rfl
  have ran : (strayed first second).runMainWithin depth stray "s" = _ :=
    runMainWithin_eq_error (by rw [location]; exact entry) evaluated
  exact ⟨_, ran⟩

private theorem imports_importing (name : String) :
    (importing name).imports (emptyRuntime.loader.names stray) = ["a"] := by
  have meant : emptyRuntime.loader.names stray name "a" = "a" := names_stray (by decide) name
  simp only [Module.imports, importing, List.map_cons, List.map_nil, meant]

private theorem imports_importingBoth {other : String} (h : other ∈ ["a", "b", "c", "d"])
    (name : String) :
    (importingBoth name other).imports (emptyRuntime.loader.names stray) = ["b", other] := by
  have first : emptyRuntime.loader.names stray name "b" = "b" := names_stray (by decide) name
  simp only [Module.imports, importingBoth, List.map_cons, List.map_nil, first, names_stray h]

/-- What a name imports that is not registered, or is that of the entry module. -/
private theorem importsOf_stray (env : Environment) {entry name : String}
    (loader : env.loader = emptyRuntime.loader)
    (anew : name = entry ∨ env.registry.find? name = none) :
    env.importsOf stray entry name = (emptyRuntime.loader.moduleAt stray name).toOption.map
      (·.imports (emptyRuntime.loader.names stray)) := by
  unfold Environment.importsOf
  rw [loader]
  by_cases here : name = entry
  · rw [if_pos here, here]
  · unfold Registry.importsOf
    rw [if_neg here, anew.resolve_left here]

private theorem depthFirst_stray :
    DepthFirst (emptyRuntime.importsOf stray "a") (emptyRuntime.passed "a") ["a"] ["a", "b"]
      (some "c") := by
  have a : emptyRuntime.importsOf stray "a" "a" = some ["b", "c"] := by
    rw [importsOf_stray _ rfl (Or.inl rfl), moduleAt_a]
    exact congrArg some (imports_importingBoth (by decide) "a")
  have b : emptyRuntime.importsOf stray "a" "b" = some ["a"] := by
    rw [importsOf_stray _ rfl (Or.inr rfl), moduleAt_b]
    exact congrArg some (imports_importing "b")
  have c : emptyRuntime.importsOf stray "a" "c" = none := by
    rw [importsOf_stray _ rfl (Or.inr rfl), moduleAt_c]
    rfl
  have fresh : ∀ name, emptyRuntime.registry.find? name = none ∨ name = "a" →
      name ∉ emptyRuntime.passed "a" := by
    rintro name anew ⟨⟨h, m, named, -⟩, other⟩
    rw [anew.resolve_right other] at named
    cases named
  refine .opens (fresh "a" (Or.inr rfl)) a (.opens ?_ b (.passed (by simp) (.stuck ?_ c)))
  · simp [fresh "b" (Or.inl rfl)]
  · simp [fresh "c" (Or.inl rfl)]

private theorem depthFirst_strayed (first second : ImportMeta) :
    DepthFirst ((strayed first second).importsOf stray "s") ∅ ["s"] ["s", "b", "a"] (some "c") := by
  have s : (strayed first second).importsOf stray "s" "s" = some ["b", "d"] := by
    rw [importsOf_stray (strayed first second) rfl (Or.inl rfl), moduleAt_s]
    exact congrArg some (imports_importingBoth (by decide) "s")
  have b : (strayed first second).importsOf stray "s" "b" = some ["a"] :=
    congrArg some (imports_importing "b")
  have a : (strayed first second).importsOf stray "s" "a" = some ["b", "c"] :=
    congrArg some (imports_importingBoth (by decide) "a")
  have c : (strayed first second).importsOf stray "s" "c" = none := by
    rw [importsOf_stray (strayed first second) rfl (Or.inr rfl), moduleAt_c]
    rfl
  exact .opens (by simp) s (.opens (by simp) b (.opens (by simp) a (.passed (by simp)
    (.stuck (by simp) c))))

-- ---------------------------------------------------------------------------
-- Failures
-- ---------------------------------------------------------------------------

/-- A run that fails fails for the first location that cannot be loaded, in the depth-first order of
imports that passes over what is linked, and its error is the one that loading this location gives,
whatever is registered. Nothing else is loaded, and nothing requested, but the entry module and what
comes before this location in the order without being registered; and the modules of these are
registered. If what is linked imports only what is linked, in particular if no run has failed so far,
the location is also the first in depth-first order of all imports. The runtime may be any whose index
is in step, as it is after a start and any runs (`Runs.indexed`). -/
theorem runMainWithin_fails (indexed : env.registry.Indexed) {depth : Nat} {e : LoadError}
    (ran : env.runMainWithin depth files path = some (.error e, env')) :
    ∃ log met last, env.runLogged depth files path = some (.error e, env', log) ∧
      env.FailsAt files path e env' log met last ∧
      (env.Closed files (entryLocation files path) ∨
          (∃ loader startup, Unfailing loader startup files env) →
        ∃ all, DepthFirst (env.importsOf files (entryLocation files path)) ∅
          [entryLocation files path] all (some last) ∧ met.Sublist all) := by
  rw [runMainWithin_eq_logged] at ran
  obtain ⟨⟨result, after, log⟩, logged, same⟩ := Option.map_eq_some_iff.1 ran
  cases same
  obtain ⟨met, last, fails⟩ := runLogged_fails indexed logged
  refine ⟨log, met, last, logged, fails, ?_⟩
  rintro (closed | ⟨loader, startup, unfailing⟩)
  · exact fails.closed indexed closed
  · exact fails.closed indexed (unfailing.closed _)

/-- In a runtime just started a run of `a` meets `b` after `a` and fails for `c`. -/
theorem runMainWithin_fails_cycle : ∃ env log, emptyRuntime.runMainWithin 2 stray "a" =
      some (.error (.notFound "c"), env) ∧
    emptyRuntime.runLogged 2 stray "a" = some (.error (.notFound "c"), env, log) ∧
    emptyRuntime.FailsAt stray "a" (.notFound "c") env log ["a", "b"] "c" ∧
    ∃ all, DepthFirst (emptyRuntime.importsOf stray "a") ∅ ["a"] all (some "c") := by
  obtain ⟨first, second, ran⟩ := runMainWithin_stray (Nat.le_refl 2)
  have location : entryLocation stray "a" = "a" :=
    entryLocation_of_find found_a rfl
  have indexed := indexed_startWithin (start_empty stray)
  obtain ⟨log, met, last, logged, fails, full⟩ := runMainWithin_fails indexed ran
  have order := fails.order
  rw [location] at order
  obtain ⟨same, same'⟩ := order.unique depthFirst_stray
  cases same
  cases same'
  obtain ⟨all, order', -⟩ := full (Or.inr ⟨_, _, .start (start_empty stray)⟩)
  rw [location] at order'
  exact ⟨_, log, ran, logged, fails, all, order'⟩

/-- A later run of `s` imports `a` again, and `a` imports `c`, which cannot be loaded. But `b` is
passed over, so the run fails for `d`. -/
theorem runMain_passes_over_linked : ∃ env env',
    emptyRuntime.runMain stray "a" = some (.error (.notFound "c"), env) ∧
    env.runMain stray "s" = some (.error (.notFound "d"), env') ∧
    DepthFirst (env.importsOf stray (entryLocation stray "s")) ∅ [entryLocation stray "s"]
      ["s", "b", "a"] (some "c") ∧
    ∀ main r requests, (env.loader.loadModule stray "c" main r requests).1 =
      .error (.notFound "c") := by
  obtain ⟨first, second, ran⟩ := runMainWithin_stray (show 2 ≤ Startup.maxDepth by decide)
  obtain ⟨env, ran'⟩ :=
    runMainWithin_strayed (show 1 ≤ Startup.maxDepth by decide) first second
  have location : entryLocation stray "s" = "s" :=
    entryLocation_of_find found_s rfl
  refine ⟨_, env, ran, ran', ?_, fun main r requests => ?_⟩
  · rw [location]
    exact depthFirst_strayed first second
  · exact congrArg Prod.fst (Loader.loadModule_of_moduleAt_eq_error moduleAt_c main r requests)

end Environment

end Esm
