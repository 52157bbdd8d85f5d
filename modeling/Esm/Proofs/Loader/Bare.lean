-- SUMMARY: What an import of a bare name comes to that no library has: the file of that name.
import Esm.Proofs.FileTree.RealPath
import Esm.Proofs.Loader.Provenance
import Esm.Proofs.Location.Search

/-!
# Bare names

A bare name that is found in no library is passed on as it is, so that it can mean a built-in module.
If none is registered under it, the loader takes the name for a location, and so for a path from the
current directory. The import fails only if there is no file at that path that holds a module.
-/

namespace Esm

open Registry

/-- The text that is compiled for the file at a path. -/
def Content.wrapped (path text : String) : String :=
  if Path.extension path = some "json" then JsonModule.wrap text else text

/-- A file holds the module that its text is compiled to. -/
def FileTree.Holds (files : FileTree) (path : String) (m : Module) : Prop :=
  ∃ text, Content.readText files path = .ok text ∧ Path.extension path ≠ some "so" ∧
    '\x00' ∉ (Content.wrapped path text).toList ∧
    Module.compile (Content.wrapped path text) path = .ok m

theorem isUrl_of_bare {name : String} (bare : Specifier.kind name = .bare) :
    Specifier.isUrl name = false := by
  unfold Specifier.kind at bare
  split at bare
  · cases bare
  · split at bare
    · cases bare
    · split at bare
      · cases bare
      · split at bare
        · cases bare
        · rename_i other
          exact Bool.eq_false_iff.2 other

namespace Loader

variable {loader : Loader} {files : FileTree} {name : String}

-- ---------------------------------------------------------------------------
-- Names as paths
-- ---------------------------------------------------------------------------

/-- The text of a file that is not an addon. -/
theorem textOf_file {path : String} (offWeb : Specifier.isUrl path = false)
    (script : Path.extension path ≠ some "so") (files : FileTree) (transport : Transport) :
    ContentKind.ofLocation path ≠ .nativeAddon ∧
      Content.textOf files transport path (.ofLocation path) =
        (Content.readText files path).map (Content.wrapped path) := by
  unfold ContentKind.ofLocation Content.wrapped
  rw [offWeb, if_neg Bool.false_ne_true]
  split
  · rename_i addon
    exact absurd addon script
  · rename_i json
    simp only [json, if_true]
    exact ⟨Ne.symm nofun, rfl⟩
  · rename_i other
    simp only [if_neg other]
    refine ⟨Ne.symm nofun, ?_⟩
    show Content.readText files path = _
    cases Content.readText files path with
    | error e => rfl
    | ok text => rfl

/-- A location that is no address holds what the file at this path holds. -/
theorem holds_iff (offWeb : Specifier.isUrl name = false) {m : Module} :
    loader.Holds files name m ↔ files.Holds name m := by
  constructor
  · rintro ⟨content, load, kind, compiled⟩
    have script : Path.extension name ≠ some "so" := by
      intro addon
      refine kind ((kind_load load).trans ?_)
      unfold ContentKind.ofLocation
      rw [offWeb, addon]
      rfl
    have text := (textOf_file offWeb script files loader.transport).2
    unfold Content.load at load
    dsimp only at load
    rw [text] at load
    cases read : Content.readText files name with
    | error e =>
      rw [read] at load
      cases load
    | ok text =>
      simp only [read, Except.map, bind, Except.bind, SourceText.ofString?] at load
      by_cases noNul : '\x00' ∉ (Content.wrapped name text).toList
      · rw [dif_pos noNul] at load
        cases load
        exact ⟨text, read, script, noNul, compiled⟩
      · rw [dif_neg noNul] at load
        cases load
  · rintro ⟨text, read, script, noNul, compiled⟩
    obtain ⟨kind, texts⟩ := textOf_file offWeb script files loader.transport
    refine ⟨⟨⟨Content.wrapped name text, noNul⟩, .ofLocation name⟩, ?_, kind, compiled⟩
    unfold Content.load
    simp only [texts, read, Except.map, bind, Except.bind, SourceText.ofString?, dif_pos noNul]

/-- A bare name that no library has is a name for the registry and for the loader. -/
theorem resolve_bare (bare : Specifier.kind name = .bare)
    (unlisted : Location.search files loader.roots name = none) (base : String) :
    (loader.resolve files name base).location = name := by
  unfold Loader.resolve
  rw [Location.resolve_bare bare, unlisted]
  rfl

-- ---------------------------------------------------------------------------
-- Imports
-- ---------------------------------------------------------------------------

/-- To link an import of a bare name that no library has and that is not registered is to load the
file of that name in the current directory. Only if that holds no module is nothing registered, and
then the import fails. -/
theorem linksAll_bare {base : String} {requests : List String}
    {s s' : Linking Requests} {result : Except (LinkError LoadError) (List Handle)}
    (bare : Specifier.kind name = .bare)
    (unlisted : Location.search files loader.roots name = none)
    (absent : s.registry.find? name = none)
    (run : Linking.LinksAll (loader.host files) base (name :: requests) s result s') :
    (∃ m m', files.Holds name m ∧ s'.registry.get? s.registry.count = some m' ∧
      m'.module = m) ∨
    (∀ m, ¬ files.Holds name m) ∧ (∃ e, result = .error (.host e)) ∧
      s'.registry = s.registry := by
  have holds : ∀ {m}, loader.Holds files name m ↔ files.Holds name m :=
    holds_iff (isUrl_of_bare bare)
  have meant : (loader.host files).ask s.host base name = (name, s.host) :=
    Prod.ext (resolve_bare bare unlisted base) rfl
  have loads : ∀ {found t}, Linking.require (loader.host files) base name s = (found, t) →
      loader.Loads files name false s.registry found t.registry := by
    intro found t required
    obtain ⟨_, _, ask, ⟨h, present, -⟩ | ⟨-, load⟩⟩ := Linking.require_eq required
    · cases meant.symm.trans ask
      rw [absent] at present
      cases present
    · cases meant.symm.trans ask
      exact loadModule_loads load
  rcases run.first with ⟨cause, required, rfl⟩ | ⟨h, t, required, ended⟩
  · have loaded := loads required
    generalize s'.registry = r' at loaded ⊢
    cases loaded with
    | refused refused =>
      refine Or.inr ⟨fun m file => ?_, ⟨cause, rfl⟩, rfl⟩
      rw [compiledAt_eq_ok.2 (holds.2 file)] at refused
      cases refused
    | @left m _ held _ _ => exact Or.inl ⟨m, _, holds.1 held, get?_registered s.registry m, rfl⟩
  · -- what was loaded stays registered, however the linking goes on
    have retained : t.registry.Retains s'.registry := by
      have kept : Linking.Kept (loader.host files) t.registry.Retains := retains_kept _
      rcases ended with ⟨e, visited, -⟩ | ⟨u, rest, visited, others, -⟩
      · exact kept.link visited (Retains.refl _)
      · exact kept.linksAll others (kept.link visited (Retains.refl _))
    have loaded := loads required
    generalize t.registry = r' at loaded retained
    cases loaded with
    | @added m properties held _ =>
      have added := get?_add s.registry ⟨m, .compiled, [], properties⟩ s.registry.count
      rw [if_pos rfl] at added
      obtain ⟨m', found, module, -⟩ := retained added
      exact Or.inl ⟨m, m', holds.1 held, found, module⟩

/-- A file `foo` in the current directory, and no library. -/
def withFoo : FileTree :=
  ⟨[(["w"], .directory), (["w", "foo"], .file [])], ["w"]⟩

/-- A registry with the module `foo`. -/
def registeredFoo (status : Status) : Linking Requests :=
  ⟨⟨[⟨⟨"foo", .empty, ⟨[], []⟩⟩, status, [], [("url", .text "file:///w/foo"), ("main", .flag false),
    ("dirname", .text "/w"), ("basename", .text "foo")]⟩], [("foo", 0)]⟩, []⟩

private theorem find_withFoo : withFoo.find "foo" = .ok (["w", "foo"], .file []) :=
  FileTree.find_file rfl (by rfl) (by decide) rfl

/-- There is no directory `/lib`. -/
private theorem isFile_lib {path : String} (rest : List Path.Part)
    (steps : FileTree.steps path = .root :: .here :: .name "lib" :: rest) (more : rest ≠ []) :
    ¬ withFoo.isFile path = true := by
  have walked : withFoo.walk FileTree.maxLinks withFoo.current (FileTree.steps path) =
      .error .notFound := by
    have absent : withFoo.lookup ([] ++ ["lib"]) = none := by rfl
    rw [steps, FileTree.walk_root, FileTree.walk_here,
      FileTree.walk_missing FileTree.maxLinks (by decide) absent]
    exact if_neg more
  unfold FileTree.isFile FileTree.find FileTree.locate
  cases FileTree.validate path with
  | error e => exact Bool.false_ne_true
  | ok =>
    simp only [bind, Except.bind, walked]
    exact Bool.false_ne_true

private theorem search_withFoo : Location.search withFoo ["/lib"] "foo" = none := by
  have joined : Path.join "/lib" "foo" = "/lib/foo" := by rfl
  have candidates : Location.candidates "/lib/foo" =
      ["/lib/foo", "/lib/foo.js", "/lib/foo/index.js", "/lib/foo.so"] := by rfl
  unfold Location.search Location.probe
  simp only [List.findSome?_cons, joined, candidates, List.findSome?_nil]
  rw [List.find?_eq_none.2]
  simp only [List.forall_mem_cons]
  refine ⟨?_, ?_, ?_, ?_, nofun⟩
  · exact isFile_lib [.name "foo"] (by rfl) nofun
  · exact isFile_lib [.name "foo.js"] (by rfl) nofun
  · exact isFile_lib [.name "foo", .name "index.js"] (by rfl) nofun
  · exact isFile_lib [.name "foo.so"] (by rfl) nofun

private theorem loadModule_withFoo :
    loadModule ⟨["/lib"], .offline⟩ withFoo "foo" false .empty [] =
      (.ok 0, (registeredFoo .compiled).registry, []) := by
  have bytes : withFoo.read "foo" = .ok [] := FileTree.read_of_find find_withFoo
  have text : Content.readText withFoo "foo" = .ok "" := by
    unfold Content.readText
    rw [bytes]
    rfl
  have holds : Loader.Holds ⟨["/lib"], .offline⟩ withFoo "foo" ⟨"foo", .empty, ⟨[], []⟩⟩ :=
    (holds_iff (by decide +kernel)).2
      ⟨"", text, by decide +kernel, List.not_mem_nil, Module.compile_empty "foo"⟩
  have spelled : withFoo.Spelled := .ofEntries (.ofEntries (by decide) (by decide)) (by decide)
  have stamped : stampOf withFoo "foo" (ContentKind.ofLocation "foo").isFile false =
      .ok [("url", .text "file:///w/foo"), ("main", .flag false), ("dirname", .text "/w"),
        ("basename", .text "foo")] := by
    have file : (ContentKind.ofLocation "foo").isFile = true := by rfl
    rw [file, stampOf_real, spelled.realPath_of_find find_withFoo]
    rfl
  exact loadModule_added holds stamped .empty []

/-- The import of `foo` registers the file of that name in the current directory. -/
theorem linksAll_bare_current_directory :
    Specifier.kind "foo" = .bare ∧ Location.search withFoo ["/lib"] "foo" = none ∧
      Registry.empty.find? "foo" = none ∧
      Linking.LinksAll (host ⟨["/lib"], .offline⟩ withFoo) "main.js" ["foo"] ⟨.empty, []⟩ (.ok [0])
        (registeredFoo .linked) ∧
      ∃ m m', withFoo.Holds "foo" m ∧ (registeredFoo .linked).registry.get? 0 = some m' ∧
        m'.module = m := by
  have bare : Specifier.kind "foo" = .bare := by decide +kernel
  have unlisted := search_withFoo
  have run : Linking.LinksAll (host ⟨["/lib"], .offline⟩ withFoo) "main.js" ["foo"] ⟨.empty, []⟩
      (.ok [0]) (registeredFoo .linked) := by
    have required : Linking.require (host ⟨["/lib"], .offline⟩ withFoo) "main.js" "foo"
        ⟨.empty, []⟩ = (.ok 0, registeredFoo .compiled) := by
      have meant : (host ⟨["/lib"], .offline⟩ withFoo).ask [] "main.js" "foo" = ("foo", []) :=
        Prod.ext (resolve_bare bare unlisted "main.js") rfl
      exact Linking.require_loaded meant rfl loadModule_withFoo
    refine ⟨1, Linking.linkRequests_cons required (Linking.link_done rfl rfl rfl) rfl⟩
  refine ⟨bare, unlisted, rfl, run, ?_⟩
  rcases linksAll_bare bare unlisted rfl run with loaded | ⟨-, ⟨e, failed⟩, -⟩
  · exact loaded
  · cases failed

end Loader

end Esm
