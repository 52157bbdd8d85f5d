-- SUMMARY: Linking that succeeds after failures comes to the same as linking that succeeds at once.
import Esm.Proofs.Registry.Needs
import Esm.Proofs.Registry.Termination

/-!
# Retrying

Linking a module may fail, because a name is not available or its source does not compile, and be
tried again with other names available. A failed attempt leaves some modules linked and others
compiled, and some that are linked may depend on others that are not. But each of the latter is
still reached from the module through compiled ones only, so that the next attempt comes back to it.
Once an attempt succeeds, everything is as if it had succeeded at first.
-/

namespace Esm

/-- The modules that a name may get, if each name has a fixed source or none. -/
def CompiledFrom (sources : String → Option String) (name : String) (m : Module) : Prop :=
  ∃ source, sources name = some source ∧ Module.compile source name = .ok m

theorem Registry.settles_compiledFrom (sources : String → Option String) :
    Registry.Settles (CompiledFrom sources) := by
  refine ⟨?_, ?_⟩
  · intro name m ⟨source, _, compiled⟩
    exact Module.name_compile compiled
  · intro name m m' ⟨source, found, compiled⟩ ⟨source', found', compiled'⟩
    rw [found] at found'
    cases found'
    rw [compiled] at compiled'
    cases compiled'
    rfl

namespace Registry

/-- Where failed attempts to link `main` leave a registry: modules are linked to what their imports
mean, or compiled and then within reach of the next attempt. -/
structure Partway (names : String → String → String) (root : Handle) (r : Registry) : Prop where
  start : r.Compiled root
  stage : ∀ {h m}, r.get? h = some m → m.status = .compiled ∨ m.status = .linked
  linked : ∀ {h m}, r.get? h = some m → m.status = .linked →
    List.Forall₂ (fun name d => r.find? name = some d) (m.module.imports names) m.dependencies
  waiting : ∀ {k}, r.Compiled k → r.Unfinished names root k

variable {names : String → String → String} {root : Handle} {r r' : Registry}

theorem Partway.register (m : Module) : Partway names 0 (empty.register m).1 := by
  have root : (empty.register m).1.Compiled 0 := ⟨_, rfl, rfl⟩
  refine ⟨root, ?_, ?_, ?_⟩
  · intro h n found
    obtain ⟨-, rfl⟩ := get?_register_empty found
    exact Or.inl rfl
  · intro h n found linked
    obtain ⟨-, rfl⟩ := get?_register_empty found
    cases linked
  · intro k ⟨n, found, _⟩
    obtain ⟨rfl, -⟩ := get?_register_empty found
    exact .here root

/-- A module is compiled or linked after an attempt too. -/
theorem Partway.stage_later (partway : Partway names root r) (advances : r.Advances r')
    {h : Handle} {m' : Registered} (found' : r'.get? h = some m') :
    m'.status = .compiled ∨ m'.status = .linked := by
  cases found : r.get? h with
  | none => exact advances.added found found'
  | some m =>
    obtain ⟨_, kept, advance⟩ := advances.kept found
    cases found'.symm.trans kept
    cases partway.stage found with
    | inl compiled => exact advance.moved compiled
    | inr linked =>
      have past : m.status ≠ .compiled := by rw [linked]; exact nofun
      exact Or.inr ((advance.held past).1.trans linked)

/-- So is what a module has been linked to, whether in this attempt or in an earlier one. -/
theorem Partway.linked_later {left : Handle → Prop} (partway : Partway names root r)
    (grows : r.Grows r') (leaves : r.Leaves names r' left) {h : Handle} {m' : Registered}
    (found' : r'.get? h = some m') (linked : m'.status = .linked) :
    List.Forall₂ (fun name d => r'.find? name = some d) (m'.module.imports names)
      m'.dependencies := by
  by_cases new : ∀ m, r.get? h = some m → m.status = .compiled
  · exact (leaves.linked found' linked new).imp fun _ _ target => target.named
  · push Not at new
    obtain ⟨m, found, past⟩ := new
    obtain ⟨_, kept, advance⟩ := grows.advances.kept found
    cases found'.symm.trans kept
    obtain ⟨status, dependencies⟩ := advance.held past
    rw [advance.module, dependencies]
    refine (partway.linked found (status.symm.trans linked)).imp ?_
    intro name d named
    exact grows.named named

/-- A compiled module is requested by one that was linked in this attempt only if it is left
unfinished by the attempt. -/
theorem Leaves.requested {left : Handle → Prop} (leaves : r.Leaves names r' left)
    (grows : r.Grows r') (partway : Partway names root r) {j k : Handle} (compiled : r.Compiled j)
    (linked : ¬ r'.Compiled j) (requests : r.Requests names j k) (waits : r'.Compiled k) :
    left k := by
  obtain ⟨m, found, status⟩ := compiled
  obtain ⟨m', found', advance⟩ := grows.advances.kept found
  have linked' : m'.status = .linked := by
    cases advance.moved status with
    | inl compiled => exact absurd ⟨m', found', compiled⟩ linked
    | inr linked => exact linked
  have targets := leaves.linked found' linked' fun n hn => by
    cases found.symm.trans hn
    exact status
  obtain ⟨_, name, hm, mem, named⟩ := requests
  cases found.symm.trans hm
  rw [← advance.module] at mem
  obtain ⟨d, target⟩ := exists_of_forall₂ targets mem
  cases target.named.symm.trans (grows.named named)
  obtain bound | ⟨n, hn, underway⟩ | left := target.bound
  · exact absurd waits bound.not_compiled
  · cases partway.stage hn with
    | inl compiled =>
      rw [compiled] at underway
      cases underway
    | inr linked =>
      rw [linked] at underway
      cases underway
  · exact left

/-- What holds of the root if it is compiled, of what an attempt leaves unfinished, and of what is
requested by modules that it holds of, holds of every module that still waits after the attempt. -/
theorem Partway.waits {left P : Handle → Prop} (partway : Partway names root r)
    (grows : r.Grows r') (leaves : r.Leaves names r' left) (start : r'.Compiled root → P root)
    (unfinished : ∀ k, left k → P k)
    (step : ∀ {j k}, P j → r'.Requests names j k → r'.Compiled k → P k) {k : Handle}
    (waits : r'.Compiled k) : P k := by
  cases known : r.get? k with
  | none => exact unfinished k (leaves.added known waits)
  | some m =>
    -- along the modules by which the attempt might have come to this one
    obtain ⟨compiled, path⟩ :=
      partway.waiting ⟨m, known, waits.origin grows.advances known⟩
    clear known m
    induction path with
    | refl => exact start waits
    | @tail j k path next ih =>
      have compiled : r.Compiled j := by
        cases path with
        | refl => exact compiled
        | tail _ last => exact last.2
      by_cases waits' : r'.Compiled j
      · exact step (ih waits') (next.1.grows grows) waits
      · exact unfinished k (leaves.requested grows partway compiled waits' next.1 waits)

end Registry

namespace Linking

open Registry

variable {σ ε : Type} {host : Host σ ε} {States : σ → Prop} {names : String → String → String}
  {offers : String → Module → Prop} {root : Handle} {s s' : Linking σ}

/-- A module that fails to be linked is compiled afterwards. -/
theorem Links.put_back (supplies : host.Supplies States names offers) {e : LinkError ε}
    (links : Links host root s (.error e) s') (steady : s.InStep States)
    (compiled : s.registry.Compiled root) : s'.registry.Compiled root := by
  have cases : Cases host
      (fun h s result s' => s.InStep States → s.registry.Compiled h →
        (∃ e, result = .error e) → s'.registry.Compiled h)
      (fun _ _ _ _ _ => True) := by
    refine ⟨?_, ?_, ?_, ?_, trivial, ?_, ?_, ?_, ?_⟩
    · -- unknown
      intro h s absent _ compiled _
      exact compiled
    · -- settled
      intro h s m _ _ _ compiled _
      exact compiled
    · -- failed
      intro h s m e t found _ run _ steady _ _
      obtain ⟨-, grows⟩ := (grows_cases supplies).linksAll run (steady.marked h)
      obtain ⟨m', found', -⟩ := marked_advances found grows.advances
      exact compiled_putBack found'
    · -- done
      intro h s m dependencies t _ _ _ _ _ _ ⟨e, failed⟩
      cases failed
    all_goals intros; trivial
  exact cases.links links steady compiled ⟨e, rfl⟩

/-- A failed attempt leaves the registry partway. -/
theorem partway_failed (supplies : host.Supplies States names offers) {e : LinkError ε}
    (links : Links host root s (.error e) s') (steady : s.InStep States)
    (partway : Partway names root s.registry) : Partway names root s'.registry := by
  obtain ⟨-, grows⟩ := (grows_cases supplies).links links steady
  obtain ⟨leaves, -⟩ := (leaves_cases supplies).links links steady
  have start := links.put_back supplies steady partway.start
  refine ⟨start, fun found => partway.stage_later grows.advances found,
    fun found linked => partway.linked_later grows leaves found linked, ?_⟩
  intro k waits
  apply partway.waits grows leaves (fun _ => .here start) ?_ ?_ waits
  · intro k ⟨_, h, same, unfinished⟩
    rw [same] at unfinished
    exact unfinished
  · intro j k unfinished requests compiled
    exact ⟨unfinished.1, unfinished.2.tail ⟨requests, compiled⟩⟩

/-- An attempt that succeeds leaves nothing but linked modules. -/
theorem allLinked_done (supplies : host.Supplies States names offers)
    (links : Links host root s (.ok ()) s') (steady : s.InStep States)
    (partway : Partway names root s.registry) : s'.registry.AllLinked names := by
  obtain ⟨-, grows⟩ := (grows_cases supplies).links links steady
  obtain ⟨leaves, done⟩ := (leaves_cases supplies).links links steady
  have none : ∀ k, ¬ s'.registry.Compiled k := by
    intro k waits
    refine partway.waits grows leaves ?_ (fun k blamed => Blamed.ok blamed) (fun no _ _ => no) waits
    intro compiled
    obtain bound | ⟨m', found', underway⟩ := done rfl
    · exact bound.not_compiled compiled
    · obtain ⟨m, found, status⟩ := compiled
      cases found.symm.trans found'
      rw [status] at underway
      cases underway
  intro h m found
  have status : m.status = .linked := by
    cases partway.stage_later grows.advances found with
    | inl compiled => exact absurd ⟨m, found, compiled⟩ (none h)
    | inr linked => exact linked
  exact ⟨status, partway.linked_later grows leaves found status⟩

/-- An attempt to link a module that fails, through any host that supplies the names. -/
inductive FailedAttempt (names : String → String → String) (offers : String → Module → Prop)
    (root : Handle) (r : Registry) : Registry → Prop where
  | link {σ ε : Type} {host : Host σ ε} {States : σ → Prop} {state : σ} {depth : Nat}
    {e : LinkError ε} {s : Linking σ} : host.Supplies States names offers → States state →
    link host depth root ⟨r, state⟩ = some (.error e, s) →
    FailedAttempt names offers root r s.registry

/-- Any number of such attempts. -/
abbrev FailedAttempts (names : String → String → String) (offers : String → Module → Prop)
    (root : Handle) : Registry → Registry → Prop :=
  Relation.ReflTransGen (FailedAttempt names offers root)

theorem FailedAttempts.known {r r' : Registry} {main : Module}
    (attempts : FailedAttempts names offers root r r') (known : Known names offers root main r) :
    Known names offers root main r' := by
  induction attempts with
  | refl => exact known
  | tail _ attempt ih =>
    cases attempt with
    | link supplies state run => exact (known_cases supplies root main).links ⟨_, run⟩ state ih

theorem FailedAttempts.partway {r r' : Registry} {main : Module}
    (attempts : FailedAttempts names offers root r r') (known : Known names offers root main r)
    (partway : Partway names root r) : Partway names root r' := by
  induction attempts with
  | refl => exact partway
  | tail earlier attempt ih =>
    have indexed := (FailedAttempts.known earlier known).indexed
    cases attempt with
    | link supplies state run => exact partway_failed supplies ⟨_, run⟩ ⟨state, indexed⟩ ih

/-- What linking can reach is imported by what is needed. -/
theorem InReach.imported {r : Registry} {main : Module} (known : Known names offers root main r)
    {name : String} (reached : InReach names offers r root name) :
    ∃ m, Needed names offers main m ∧ name ∈ m.imports names := by
  induction reached with
  | root found _ mem => exact ⟨_, known.needed found, mem⟩
  | registered _ _ found _ mem _ => exact ⟨_, known.needed found, mem⟩
  | @offered name next m _ absent offered mem ih =>
    obtain ⟨base, needed, imported⟩ := ih
    refine ⟨m, .imported needed imported ?_ offered, mem⟩
    intro same
    rw [same, known.find?_main] at absent
    cases absent

/-- Linking `main` through a host that is ready succeeds, if there is a registry that holds all that
it needs. -/
theorem links_ready {after r : Registry} {main : Module} (linked : after.AllLinked names)
    (known : Known names offers root main after) (settles : Settles offers)
    (supplies : host.Supplies States names offers) (ready : host.Ready States offers)
    {state : σ} (hstate : States state) (known' : Known names offers root main r) :
    ∃ t, Links host root ⟨r, state⟩ (.ok ()) t := by
  have finite : {name | InReach names offers r root name}.Finite := by
    apply (List.finite_toSet ((after.modules.map (·.module)).flatMap (·.imports names))).subset
    intro name reached
    obtain ⟨m, needed, mem⟩ := InReach.imported known' reached
    obtain ⟨h, n, found, rfl⟩ := linked.registered known settles needed
    exact List.mem_flatMap.2 ⟨_, List.mem_map_of_mem (List.mem_of_getElem? found), mem⟩
  obtain ⟨result, t, links⟩ :=
    links_of_finite supplies (s := ⟨r, state⟩) ⟨hstate, known'.indexed⟩ finite
  have provided : ∀ {m name}, Needed names offers main m → name ∈ m.imports names →
      name ≠ main.name → ∃ m', offers name m' :=
    fun needed mem other => linked.provided known settles needed mem other
  obtain ⟨m, found, -⟩ := known'.present
  obtain ⟨_, ok⟩ := (ready_cases supplies ready root provided).links links hstate known' ⟨m, found⟩
  exact ⟨t, ok ▸ links⟩

end Linking

-- ---------------------------------------------------------------------------
-- Hosts with sources
-- ---------------------------------------------------------------------------

/-- The host that compiles the sources that are available. Names are taken as they are. -/
def Host.ofSources (available : String → Option String) : Host Unit String where
  ask _ _ specifier := (specifier, ())
  load name r _ :=
    match available name with
    | none => (.error name, r, ())
    | some source =>
      match r.compile source name with
      | .error _ => (.error name, r, ())
      | .ok (r', h) => (.ok h, r', ())

theorem Host.ofSources_load {available : String → Option String} {name source : String}
    {m : Module} (found : available name = some source)
    (compiled : Module.compile source name = .ok m) (r : Registry) :
    (Host.ofSources available).load name r () = (.ok r.count, (r.register m).1, ()) := by
  unfold ofSources Registry.compile
  simp only [found, compiled, Except.map]
  rfl

theorem Host.ofSources_supplies {available sources : String → Option String}
    (le : ∀ {name source}, available name = some source → sources name = some source) :
    (Host.ofSources available).Supplies (fun _ => True) (fun _ specifier => specifier)
      (CompiledFrom sources) := by
  refine ⟨fun _ _ _ => ⟨(), trivial, rfl⟩, ?_⟩
  intro name r _ _ _
  cases found : available name with
  | none =>
    refine Or.inl ⟨name, (), trivial, ?_⟩
    unfold ofSources
    simp only [found]
  | some source =>
    cases compiled : Module.compile source name with
    | error e =>
      refine Or.inl ⟨name, (), trivial, ?_⟩
      unfold ofSources Registry.compile
      simp only [found, compiled, Except.map]
    | ok m =>
      exact Or.inr ⟨m, [], (r.register m).1, (), trivial, Module.name_compile compiled,
        ⟨source, le found, compiled⟩, Registry.adds_register r m, ofSources_load found compiled r⟩

theorem Host.ofSources_ready (sources : String → Option String) :
    (Host.ofSources sources).Ready (fun _ => True) (CompiledFrom sources) := by
  intro name r state m _ ⟨source, found, compiled⟩
  exact ⟨r.count, by rw [ofSources_load found compiled]⟩

/-- Sources may be compiled beforehand. -/
theorem Host.ofSources_eq_stocked {available : String → Option String} {modules : List Module}
    (same : ∀ name, (available name).bind (fun source => (Module.compile source name).toOption) =
      modules.find? fun m => m.name = name) : Host.ofSources available = Host.stocked modules := by
  unfold ofSources stocked
  congr
  funext name r _
  rw [← same]
  cases available name with
  | none => rfl
  | some source =>
    unfold Registry.compile
    cases h : Module.compile source name with
    | error e => simp only [Except.map, Option.bind_some, h, Except.toOption]
    | ok m =>
      simp only [Except.map, Option.bind_some, h, Except.toOption]
      rfl

-- ---------------------------------------------------------------------------
-- An attempt that fails, and one that succeeds
-- ---------------------------------------------------------------------------

private theorem tokenize_import : tokenize "import'a'" =
    .ok [⟨.identifier, 0, "import"⟩, ⟨.string, 6, "'a'"⟩] := by
  have source : Scanner.ofSource "import'a'" =
      ⟨"import".toList ++ '\'' :: ("a".toList ++ '\'' :: []), 0, none⟩ := rfl
  unfold tokenize
  rw [source, Scanner.tokens_of_next (Scanner.next_import (by decide) _ _ _),
    Scanner.tokens_of_next (Scanner.next_string (by decide) _ _ _), Scanner.tokens_nil]
  rfl

private theorem tokenize_imports : tokenize "import'b';import'c'" =
    .ok [⟨.identifier, 0, "import"⟩, ⟨.string, 6, "'b'"⟩, ⟨.punctuator, 9, ";"⟩,
      ⟨.identifier, 10, "import"⟩, ⟨.string, 16, "'c'"⟩] := by
  have source : Scanner.ofSource "import'b';import'c'" =
      ⟨"import".toList ++ '\'' :: ("b".toList ++ '\'' :: ';' ::
        ("import".toList ++ '\'' :: ("c".toList ++ '\'' :: []))), 0, none⟩ := rfl
  unfold tokenize
  rw [source, Scanner.tokens_of_next (Scanner.next_import (by decide) _ _ _),
    Scanner.tokens_of_next (Scanner.next_string (by decide) _ _ _),
    Scanner.tokens_of_next (Scanner.next_mark (by decide) (by decide) _ _),
    Scanner.tokens_of_next (Scanner.next_import (by decide) _ _ _),
    Scanner.tokens_of_next (Scanner.next_string (by decide) _ _ _), Scanner.tokens_nil]
  rfl

theorem compile_import (name : String) : Module.compile "import'a'" name =
    .ok ⟨name, ⟨["a"], [], []⟩, ⟨["import", "'a'"], [⟨.identifier, 0⟩, ⟨.string, 1⟩]⟩⟩ :=
  Module.compile_eq_ok.2 ⟨_, _, tokenize_import, Interface.eq_ok_of_toOption (by decide +kernel), rfl⟩

theorem compile_imports (name : String) : Module.compile "import'b';import'c'" name =
    .ok ⟨name, ⟨["b", "c"], [], []⟩, ⟨["import", "'b'", ";", "'c'"],
      [⟨.identifier, 0⟩, ⟨.string, 1⟩, ⟨.punctuator, 2⟩, ⟨.identifier, 0⟩, ⟨.string, 3⟩]⟩⟩ :=
  Module.compile_eq_ok.2 ⟨_, _, tokenize_imports, Interface.eq_ok_of_toOption (by decide +kernel), rfl⟩

namespace Linking

variable {σ ε : Type} {host : Host σ ε} {States : σ → Prop} {names : String → String → String}
  {root : Handle} {s : Linking σ}

/-- A module is compiled into an empty registry, and linking it fails any number of times, with
whatever can be loaded at the time, and then succeeds. To link it through a host that can load all
there is succeeds at once, and in both cases the same names are registered, each once, with the
same module, the same status, and dependencies of the same names. -/
theorem retry_as_fresh {sources : String → Option String} {source name : String} {r₀ r : Registry}
    (compiled : Registry.empty.compile source name = .ok (r₀, root))
    (attempts : FailedAttempts names (CompiledFrom sources) root r₀ r)
    (supplies : host.Supplies States names (CompiledFrom sources)) {state : σ}
    (hstate : States state) {depth : Nat}
    (success : link host depth root ⟨r, state⟩ = some (.ok (), s))
    {τ δ : Type} {fresh : Host τ δ} {States' : τ → Prop}
    (supplies' : fresh.Supplies States' names (CompiledFrom sources))
    (ready : fresh.Ready States' (CompiledFrom sources)) {state' : τ} (hstate' : States' state') :
    ∃ depth' t, (∀ d, depth' ≤ d → link fresh d root ⟨r₀, state'⟩ = some (.ok (), t)) ∧
      (∀ name, s.registry.view name = t.registry.view name) ∧
      (s.registry.modules.map (·.module.name)).Nodup ∧
      (t.registry.modules.map (·.module.name)).Nodup := by
  obtain ⟨main, -, rfl, rfl⟩ := Registry.map_register_eq_ok compiled
  have start : Registry.Partway names 0 (Registry.empty.register main).1 := .register main
  have known₀ :
      Registry.Known names (CompiledFrom sources) 0 main (Registry.empty.register main).1 :=
    .register main
  have settles := Registry.settles_compiledFrom sources
  have attempted := attempts.known known₀
  have linked := allLinked_done supplies ⟨depth, success⟩ ⟨hstate, attempted.indexed⟩
    (attempts.partway known₀ start)
  have known := (known_cases supplies 0 main).links ⟨depth, success⟩ hstate attempted
  obtain ⟨t, depth', run⟩ := links_ready linked known settles supplies' ready hstate' known₀
  have linked' := allLinked_done supplies' ⟨depth', run⟩ ⟨hstate', known₀.indexed⟩ start
  have known' := (known_cases supplies' 0 main).links ⟨depth', run⟩ hstate' known₀
  exact ⟨depth', t, fun d le => link_mono le run,
    fun name => linked.view_eq known linked' known' settles name, known.nodup, known'.nodup⟩

/-- The module `a` imports `b` and `c`, which both import `a`. At first `c` is not available. -/
theorem retry_as_fresh_cycle :
    let sources : String → Option String :=
      fun name => if name = "b" ∨ name = "c" then some "import'a'" else none
    let available : String → Option String :=
      fun name => if name = "b" then some "import'a'" else none
    ∃ r₀ r : Registry, ∃ s : Linking Unit,
      Registry.empty.compile "import'b';import'c'" "a" = .ok (r₀, 0) ∧
      link (Host.ofSources available) 3 0 ⟨r₀, ()⟩ = some (.error (.host "c"), ⟨r, ()⟩) ∧
      link (Host.ofSources sources) 3 0 ⟨r, ()⟩ = some (.ok (), s) ∧
      ∃ depth t, (∀ d, depth ≤ d →
          link (Host.ofSources sources) d 0 ⟨r₀, ()⟩ = some (.ok (), t)) ∧
        (∀ name, s.registry.view name = t.registry.view name) ∧
        (s.registry.modules.map (·.module.name)).Nodup ∧
        (t.registry.modules.map (·.module.name)).Nodup := by
  intro sources available
  let a : Module := ⟨"a", ⟨["b", "c"], [], []⟩, ⟨["import", "'b'", ";", "'c'"],
    [⟨.identifier, 0⟩, ⟨.string, 1⟩, ⟨.punctuator, 2⟩, ⟨.identifier, 0⟩, ⟨.string, 3⟩]⟩⟩
  let other (name : String) : Module :=
    ⟨name, ⟨["a"], [], []⟩, ⟨["import", "'a'"], [⟨.identifier, 0⟩, ⟨.string, 1⟩]⟩⟩
  let r₀ : Registry := ⟨[⟨a, .compiled, [], []⟩], [("a", 0)]⟩
  let r : Registry :=
    ⟨[⟨a, .compiled, [], []⟩, ⟨other "b", .linked, [0], []⟩], [("a", 0), ("b", 1)]⟩
  let s : Linking Unit := ⟨⟨[⟨a, .linked, [1, 2], []⟩, ⟨other "b", .linked, [0], []⟩,
    ⟨other "c", .linked, [0], []⟩], [("a", 0), ("b", 1), ("c", 2)]⟩, ()⟩
  have compiled : Registry.empty.compile "import'b';import'c'" "a" = .ok (r₀, 0) := by
    unfold Registry.compile
    rw [compile_imports]
    rfl
  have stocked : Host.ofSources available = Host.stocked [other "b"] := by
    apply Host.ofSources_eq_stocked
    intro name
    by_cases b : name = "b"
    · simp [available, b, compile_import, Except.toOption, other]
    · simp [available, b, other, Ne.symm b]
  have stocked' : Host.ofSources sources = Host.stocked [other "b", other "c"] := by
    apply Host.ofSources_eq_stocked
    intro name
    by_cases b : name = "b"
    · simp [sources, b, compile_import, Except.toOption, other]
    · by_cases c : name = "c"
      · simp [sources, c, compile_import, Except.toOption, other]
      · simp [sources, b, c, other, Ne.symm b, Ne.symm c]
  have fails : link (Host.ofSources available) 3 0 ⟨r₀, ()⟩ =
      some (.error (.host "c"), ⟨r, ()⟩) := by
    rw [stocked]
    rfl
  have succeeds : link (Host.ofSources sources) 3 0 ⟨r, ()⟩ = some (.ok (), s) := by
    rw [stocked']
    rfl
  have le : ∀ {name source}, available name = some source → sources name = some source := by
    intro name source found
    by_cases b : name = "b"
    · simpa [available, sources, b] using found
    · simp [available, b] at found
  have attempts : FailedAttempts (fun _ specifier => specifier) (CompiledFrom sources) 0 r₀ r :=
    .single (.link (Host.ofSources_supplies le) trivial fails)
  exact ⟨r₀, r, s, compiled, fails, succeeds, retry_as_fresh compiled attempts
    (Host.ofSources_supplies id) trivial succeeds (Host.ofSources_supplies id)
    (Host.ofSources_ready sources) trivial⟩

end Linking

end Esm
