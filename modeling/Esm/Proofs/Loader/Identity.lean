-- SUMMARY: When two modules of a runtime have the same address: if one path is spelled in two ways.
import Esm.Proofs.Loader.Bare

/-!
# Identity of modules

The registry knows a module by its name, which is a location as some path to it was spelled. Its
address is that of the file behind it. A location is loaded once, so two modules have the same
address only if their names spell the same path differently, or if the entry module was loaded
before under its name: entry modules are loaded without asking for the name.
-/

namespace Esm

namespace Registry

/-- No two modules have the same address. -/
def DistinctUrls (r : Registry) : Prop :=
  ∀ ⦃k k' m m' url⦄, r.get? k = some m → r.get? k' = some m' → m.url? = some url →
    m'.url? = some url → k = k'

/-- No two loaded modules have names that spell the same path differently. -/
def SpelledOnce (files : FileTree) (r : Registry) : Prop :=
  ∀ ⦃k k' m m'⦄, r.get? k = some m → r.get? k' = some m' → m.Loaded files → m'.Loaded files →
    files.SamePath m.module.name m'.module.name → m.module.name = m'.module.name

end Registry

namespace Environment

open Registry

-- ---------------------------------------------------------------------------
-- An entry module that is loaded twice
-- ---------------------------------------------------------------------------

/-- A file `a.js` that imports itself as `./a.js`, in the current directory. -/
def selfImporting : FileTree :=
  ⟨[(["w"], .directory), (["w", "a.js"], .file (Encoding.utf8 "import './a.js'"))], ["w"]⟩

/-- The module that `a.js` is compiled to under a name, once it is stamped. -/
def selfImport (name : String) (main : Bool) (status : Status) (dependencies : List Handle) :
    Registered :=
  ⟨⟨name, ⟨["./a.js"], [], []⟩, ⟨["import", "'./a.js'"],
    [⟨.identifier, 0⟩, ⟨.string, 1⟩]⟩⟩, status, dependencies,
    [("url", .text "file:///w/a.js"), ("main", .flag main), ("dirname", .text "/w"),
      ("basename", .text "a.js")]⟩

/-- A runtime whose bundle and library are empty. -/
def emptyRuntime : Environment :=
  ⟨⟨[], .offline⟩, ⟨⟨[⟨⟨Startup.bundleName, .empty, ⟨[], []⟩⟩, .evaluated, [], []⟩,
    ⟨⟨Startup.libraryName, .empty, ⟨[], []⟩⟩, .evaluated, [], Startup.libraryStamp⟩],
    [(Startup.bundleName, 0), (Startup.libraryName, 1)]⟩, []⟩⟩

/-- The empty runtime with two more modules. -/
def withModules (first second : Registered) : Linking Loader.Requests :=
  ⟨(emptyRuntime.registry.add first).add second, []⟩

private theorem compileBlob_empty (name : String) (r : Registry) :
    Startup.compileBlob [] name r = (.ok r.count, (r.register ⟨name, .empty, ⟨[], []⟩⟩).1) :=
  Startup.compileBlob_utf8 (Module.compile_empty name) (by decide) r

theorem startWithin_empty (depth : Nat) (files : FileTree) :
    startWithin (depth + 1) ⟨[], .offline⟩ ⟨.source, [], []⟩ files = some (.ok emptyRuntime) := by
  let bundle : Registered := ⟨⟨Startup.bundleName, .empty, ⟨[], []⟩⟩, .evaluated, [], []⟩
  let before : Registry := ⟨[bundle], [(Startup.bundleName, 0)]⟩
  have globals : Startup.addGlobalsWithin ⟨.source, [], []⟩ (depth + 1) ⟨[], .offline⟩ files
      ⟨.empty, []⟩ = some (.ok 0, ⟨before, []⟩) := by
    unfold Startup.addGlobalsWithin
    simp only [compileBlob_empty]
    have evaluated : Linking.evaluate (Loader.host ⟨[], .offline⟩ files) (depth + 1) 0
        ⟨(empty.register ⟨Startup.bundleName, .empty, ⟨[], []⟩⟩).1, []⟩ = _ :=
      Linking.evaluate_leaf depth rfl rfl rfl
    exact congrArg (Startup.answering 0) evaluated
  have builtin : Startup.addLibraryWithin ⟨.source, [], []⟩ (depth + 1) ⟨[], .offline⟩ files
      ⟨before, []⟩ = some (.ok 1, emptyRuntime.linking) := by
    unfold Startup.addLibraryWithin
    simp only [compileBlob_empty]
    have evaluated : Linking.evaluate (Loader.host ⟨[], .offline⟩ files) (depth + 1) 1
        ⟨before.add ⟨⟨Startup.libraryName, .empty, ⟨[], []⟩⟩, .compiled, [],
          Startup.libraryStamp⟩, []⟩ = _ :=
      Linking.evaluate_leaf depth rfl rfl rfl
    exact congrArg (Startup.answering 1) evaluated
  unfold startWithin
  simp only [globals, builtin]
  rfl

theorem start_empty (files : FileTree) :
    start ⟨[], .offline⟩ ⟨.source, [], []⟩ files = some (.ok emptyRuntime) :=
  startWithin_empty 9999 files

private theorem compile_selfImport (name : String) :
    Module.compile "import './a.js'" name = .ok (selfImport name true .compiled []).module := by
  have source : Scanner.ofSource "import './a.js'" =
      ⟨"import".toList ++ ' ' :: '\'' :: ("./a.js".toList ++ '\'' :: []), 0, none⟩ := rfl
  have path : Scanner.next ⟨' ' :: '\'' :: ("./a.js".toList ++ '\'' :: []), 6,
      some ⟨.identifier, 0, "import"⟩⟩ = _ :=
    (Scanner.next_blank (by decide) _ _ _).trans (Scanner.next_string (by decide) _ _ _)
  have tokens : tokenize "import './a.js'" =
      .ok [⟨.identifier, 0, "import"⟩, ⟨.string, 7, "'./a.js'"⟩] := by
    unfold tokenize
    rw [source, Scanner.tokens_of_next (Scanner.next_import (by decide) _ _ _),
      Scanner.tokens_of_next path, Scanner.tokens_nil]
    rfl
  exact Module.compile_eq_ok.2 ⟨_, _, tokens, Interface.eq_ok_of_toOption (by decide +kernel), rfl⟩

private theorem find_selfImporting {path : String} (h : path = "a.js" ∨ path = "./a.js") :
    selfImporting.find path = .ok (["w", "a.js"], .file (Encoding.utf8 "import './a.js'")) := by
  rcases h with rfl | rfl
  · exact FileTree.find_file rfl (by rfl) (by decide) rfl
  · have steps : FileTree.steps "./a.js" = [.here, .name "a.js"] := by rfl
    refine FileTree.find_eq_ok.2 (FileTree.locate_eq_ok.2 ⟨rfl, ?_⟩)
    rw [steps, FileTree.walk_here]
    exact FileTree.walk_file FileTree.maxLinks (by decide) rfl

private theorem stampOf_selfImporting {path : String} (h : path = "a.js" ∨ path = "./a.js")
    (main : Bool) :
    stampOf selfImporting path true main = .ok (selfImport path main .compiled []).importMeta := by
  have spelled : selfImporting.Spelled :=
    .ofEntries (.ofEntries (by decide) (by decide)) (by decide)
  rw [stampOf_real, spelled.realPath_of_find (find_selfImporting h)]
  rfl

private theorem loadModule_selfImporting {path : String} (h : path = "a.js" ∨ path = "./a.js")
    (main : Bool) (r : Registry) :
    Loader.loadModule ⟨[], .offline⟩ selfImporting path main r [] =
      (.ok r.count, r.add (selfImport path main .compiled []), []) := by
  have web : Specifier.isUrl path = false := by rcases h with rfl | rfl <;> rfl
  have script : Path.extension path ≠ some "so" := by rcases h with rfl | rfl <;> decide +kernel
  have plain : Content.wrapped path "import './a.js'" = "import './a.js'" := by
    rcases h with rfl | rfl <;> rfl
  have decoded : Encoding.ofUtf8? (Encoding.utf8 "import './a.js'") = some "import './a.js'" :=
    Encoding.ofUtf8?_utf8 _
  have bytes : selfImporting.read path = .ok (Encoding.utf8 "import './a.js'") :=
    FileTree.read_of_find (find_selfImporting h)
  have text : Content.readText selfImporting path = .ok "import './a.js'" := by
    unfold Content.readText
    simp only [bytes, Interface.mapError_ok, bind, Except.bind, decoded]
  have holds : Loader.Holds ⟨[], .offline⟩ selfImporting path
      (selfImport path true .compiled []).module := by
    refine (Loader.holds_iff web).2 ⟨_, text, script, ?_⟩
    rw [plain]
    exact ⟨by decide, compile_selfImport path⟩
  have file : (ContentKind.ofLocation path).isFile = true := by
    rw [ContentKind.isFile_ofLocation, web]
    rfl
  have requests : Content.requests path = [] := by
    unfold Content.requests
    rw [web]
    rfl
  have loaded := Loader.loadModule_added holds (file.symm ▸ stampOf_selfImporting h main) r []
  rw [requests] at loaded
  exact loaded

private theorem normalize_selfImporting {path : String} (h : path = "a.js" ∨ path = "./a.js") :
    (Loader.host ⟨[], .offline⟩ selfImporting).normalize [] path "./a.js" = "./a.js" := by
  have web : Specifier.isUrl path = false := by rcases h with rfl | rfl <;> rfl
  have joined : (Location.joinRelative path "./a.js").text = "./a.js" := by
    rcases h with rfl | rfl <;> rfl
  have kind : Specifier.kind "./a.js" = .relative := by
    have relative : "./".isPrefixOf "./a.js" = true := String.startsWith_string_iff.2 (by decide)
    unfold Specifier.kind
    rw [if_pos relative]
  have stems : Location.stems [] "./a.js" path = ["./a.js"] := by
    unfold Location.stems
    rw [kind]
    simp only [web, joined]
    rfl
  show (Location.resolve selfImporting [] "./a.js" path).location = "./a.js"
  unfold Location.resolve
  rw [stems]
  simp only [List.findSome?_cons, Location.probe_of_find (find_selfImporting (Or.inr rfl)) rfl]
  rfl

theorem runMainWithin_selfImporting (depth : Nat) :
    emptyRuntime.runMainWithin (depth + 2) selfImporting "a.js" =
      some (.ok 2, ⟨emptyRuntime.loader, withModules (selfImport "a.js" true .evaluated [3])
        (selfImport "./a.js" false .evaluated [3])⟩) := by
  let host := Loader.host ⟨[], .offline⟩ selfImporting
  have location : entryLocation selfImporting "a.js" = "a.js" :=
    entryLocation_of_find (find_selfImporting (Or.inl rfl)) rfl
  have meant : ∀ {path}, path = "a.js" ∨ path = "./a.js" →
      host.ask [] path "./a.js" = ("./a.js", []) :=
    fun h => Prod.ext (normalize_selfImporting h) rfl
  have second : Linking.link host (depth + 1) 3
      (withModules (selfImport "a.js" true .linking []) (selfImport "./a.js" false .compiled [])) =
      some (.ok (), withModules (selfImport "a.js" true .linking [])
        (selfImport "./a.js" false .linked [3])) := by
    let s :=
      withModules (selfImport "a.js" true .linking []) (selfImport "./a.js" false .linking [])
    have required : Linking.require host "./a.js" "./a.js" s = (.ok 3, s) :=
      Linking.require_registered (meant (Or.inr rfl)) (by rfl)
    have settled : Linking.link host depth 3 s = some (.ok (), s) :=
      Linking.link_settled (m := selfImport "./a.js" false .linking []) rfl nofun
    exact Linking.link_done (m := selfImport "./a.js" false .compiled []) rfl rfl
      (Linking.linkRequests_cons required settled rfl)
  have first : Linking.link host (depth + 2) 2
      ⟨emptyRuntime.registry.add (selfImport "a.js" true .compiled []), []⟩ =
      some (.ok (), withModules (selfImport "a.js" true .linked [3])
        (selfImport "./a.js" false .linked [3])) := by
    let s : Linking Loader.Requests :=
      ⟨emptyRuntime.registry.add (selfImport "a.js" true .linking []), []⟩
    have required : Linking.require host "a.js" "./a.js" s =
        (.ok 3, withModules (selfImport "a.js" true .linking [])
          (selfImport "./a.js" false .compiled [])) :=
      Linking.require_loaded (meant (Or.inl rfl)) (by rfl)
        (loadModule_selfImporting (Or.inr rfl) false s.registry)
    exact Linking.link_done (m := selfImport "a.js" true .compiled []) rfl rfl
      (Linking.linkRequests_cons required second rfl)
  refine runMainWithin_eq_ok.2 ⟨emptyRuntime.registry.add (selfImport "a.js" true .compiled []),
    [], _, ?_, ?_, rfl⟩
  · rw [location]
    exact loadModule_selfImporting (Or.inl rfl) true emptyRuntime.registry
  · unfold Linking.evaluate
    have first' : Linking.link (emptyRuntime.loader.host selfImporting) (depth + 2) 2 _ = _ :=
      first
    let linked := withModules (selfImport "a.js" true .linked [3])
      (selfImport "./a.js" false .linked [3])
    have marks : linked.registry.markEvaluated [2] = _ :=
      (markEvaluated_enter rfl (by decide) []).trans
        ((markEvaluated_enter rfl (by decide) []).trans
          ((markEvaluated_skip rfl rfl []).trans (markEvaluated_nil _)))
    rw [first']
    simp only [Linking.mapRegistry, linked, marks]
    rfl

-- ---------------------------------------------------------------------------
-- Addresses after a run
-- ---------------------------------------------------------------------------

variable {files : FileTree} {loader : Loader} {startup : Startup} {env env' : Environment}

/-- Where no path is spelled in two ways no two modules have the same address: those loaded have
names of their own, and the address of the library is no loaded module's. -/
theorem distinctUrls_of_traced (linkless : files.Linkless) {library : Option Handle}
    {r : Registry} (traced : r.Traced files library) (spelled : r.SpelledOnce files) :
    r.DistinctUrls := by
  have plain : ∀ {m : Registered} {url}, m.importMeta = [] → m.url? ≠ some url := by
    intro m url none address
    unfold Registered.url? at address
    rw [none] at address
    cases address
  have library_url : ∀ {m : Registered}, m.importMeta = Startup.libraryStamp →
      m.url? = some (.text Startup.libraryName) := by
    intro m stamp
    unfold Registered.url?
    rw [stamp]
    rfl
  intro k k' m m' url found found' address address'
  rcases traced.origin found with none | ⟨here, stamp⟩ | loaded
  · exact absurd address (plain none)
  · rcases traced.origin found' with none | ⟨here', -⟩ | loaded'
    · exact absurd address' (plain none)
    · rw [here] at here'
      exact Option.some.inj here'
    · rw [library_url stamp] at address
      cases address
      exact absurd address' (loaded'.url_ne linkless)
  · rcases traced.origin found' with none | ⟨-, stamp⟩ | loaded'
    · exact absurd address' (plain none)
    · rw [library_url stamp] at address'
      cases address'
      exact absurd address (loaded.url_ne linkless)
    · have same : m.module.name = m'.module.name := by
        rcases (loaded.url_eq linkless loaded').1 (address.trans address'.symm) with same | same
        · exact same
        · exact spelled found found' loaded loaded' same
      exact traced.single found found' loaded loaded' same

/-- In a tree without links, after an entry module was run in a runtime just started, no two modules
have the same address exactly if the entry module was not loaded before under its name and no path
is spelled in two ways. -/
theorem runMainWithin_distinctUrls (linkless : files.Linkless) {depth depth' : Nat}
    (started : startWithin depth loader startup files = some (.ok env)) {path : String} {h : Handle}
    (ran : env.runMainWithin depth' files path = some (.ok h, env')) :
    env'.registry.DistinctUrls ↔
      (∀ k m, env.registry.get? k = some m → m.Loaded files →
        m.module.name ≠ entryLocation files path) ∧ env'.registry.SpelledOnce files := by
  obtain ⟨library, traced⟩ := traced_startWithin linkless started
  obtain ⟨r, requests, s, load, run, rfl⟩ := runMainWithin_eq_ok.1 ran
  have evaluated := (Loader.retains_kept r).evaluate run (Retains.refl r)
  constructor
  · intro distinct
    refine ⟨?_, ?_⟩
    · intro k m found loaded named
      -- the module that was there before and the entry module have one name, so one address
      have retained := Loader.retains_loadModule load (Retains.refl env.registry)
      cases Loader.loadModule_loads load with
      | @added n properties holds stamped =>
        obtain ⟨m₁, found₁, module₁, meta₁⟩ := retained found
        obtain ⟨m', found', module', meta'⟩ := evaluated found₁
        have entry := get?_add env.registry ⟨n, .compiled, [], properties⟩ env.registry.count
        rw [if_pos rfl] at entry
        obtain ⟨n', entry', moduleₙ, metaₙ⟩ := evaluated entry
        have loaded' : m'.Loaded files :=
          loaded.of_same (module'.trans module₁) (meta'.trans meta₁)
        have loadedₙ : n'.Loaded files := by
          refine ⟨true, ?_⟩
          rw [moduleₙ, metaₙ, holds.name]
          exact stamped
        have same : m'.url? = n'.url? := by
          refine (loaded'.url_eq linkless loadedₙ).2 (Or.inl ?_)
          rw [module', module₁, named, moduleₙ, holds.name]
        have address := loadedₙ.url linkless
        have clash := distinct found' entry' (same.trans address) address
        exact absurd clash (Nat.ne_of_lt (get?_eq_some_lt found))
    · intro k k' m m' found found' loaded loaded' samePath
      have same := (loaded.url_eq linkless loaded').2 (Or.inr samePath)
      have address := loaded'.url linkless
      have here := distinct found found' (same.trans address) address
      rw [here, found'] at found
      cases found
      rfl
  · rintro ⟨fresh, spelled⟩
    have traced' := Loader.traced_loadModule linkless load traced fresh
    have traced_run := (Loader.traced_kept linkless).evaluate run traced'
    exact distinctUrls_of_traced linkless traced_run spelled

/-- The entry module `a.js` imports itself as `./a.js`, and is loaded under both names. -/
theorem runMainWithin_distinctUrls_self_import :
    ∃ env env', selfImporting.Linkless ∧
      start ⟨[], .offline⟩ ⟨.source, [], []⟩ selfImporting = some (.ok env) ∧
      env.runMain selfImporting "a.js" = some (.ok 2, env') ∧ ¬ env'.registry.DistinctUrls := by
  have linkless : selfImporting.Linkless := by decide
  have started := start_empty selfImporting
  have ran := runMainWithin_selfImporting 9998
  refine ⟨_, _, linkless, started, ran, ?_⟩
  rw [runMainWithin_distinctUrls linkless started ran]
  rintro ⟨-, spelled⟩
  have loaded : ∀ path main, path = "a.js" ∨ path = "./a.js" →
      (selfImport path main .evaluated [3]).Loaded selfImporting := by
    intro path main h
    refine ⟨main, ?_⟩
    have file : (ContentKind.ofLocation path).isFile = true := by rcases h with rfl | rfl <;> rfl
    have stamped := stampOf_selfImporting h main
    show stampOf selfImporting path (ContentKind.ofLocation path).isFile main = _
    rw [file]
    exact stamped
  have same : selfImporting.SamePath "a.js" "./a.js" := by
    refine ⟨by rfl, by rfl, ?_⟩
    rfl
  have name : "a.js" = "./a.js" :=
    @spelled 2 3 _ _ rfl rfl (loaded _ _ (Or.inl rfl)) (loaded _ _ (Or.inr rfl)) same
  exact absurd name (by decide)

end Environment

end Esm
