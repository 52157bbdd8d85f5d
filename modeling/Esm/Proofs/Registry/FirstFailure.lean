-- SUMMARY: Linking fails for the first name in depth-first order whose module cannot be had, and asks for nothing after it.
import Esm.Proofs.Registry.DepthFirst

/-!
# The first failure

A host may have for each name a module, or a reason why there is none, and give the one or the other
whatever is registered and whatever it was asked before. The order in which linking goes through
names then depends only on what was registered and on what the host has. Linking fails exactly if
this order comes to a name that has no module, and for the reason that the host gives. The host has
been asked for the names that were not registered, up to that one and none after it, and the
modules of these names have been registered.
-/

namespace Esm

variable {σ ε : Type}

/-- The host has what `source` tells of each name: a module of that name, which it registers, or the
reason why there is none. `asked` is what becomes of its state. -/
structure Host.Serves (host : Host σ ε) (names : String → String → String)
    (source : String → Except ε Module) (asked : σ → String → σ) : Prop where
  ask : ∀ state base specifier,
    host.ask state base specifier = (names base specifier, state)
  named : ∀ {name m}, source name = .ok m → m.name = name
  refuses : ∀ {name e}, source name = .error e → ∀ r state,
    host.load name r state = (.error e, r, asked state name)
  gives : ∀ {name m}, source name = .ok m → ∀ r state, ∃ properties r',
    r.Adds ⟨m, .compiled, [], properties⟩ r' ∧
      host.load name r state = (.ok r.count, r', asked state name)

variable {host : Host σ ε} {names : String → String → String} {source : String → Except ε Module}
  {asked : σ → String → σ}

/-- A change that leaves the modules as they are. -/
theorem Registry.modules_update (r : Registry) (h : Handle) {change : Registered → Registered}
    (same : ∀ m, (change m).module = m.module) :
    (r.update h change).modules.map (·.module) = r.modules.map (·.module) := by
  apply List.ext_getElem?
  intro k
  simp only [Registry.update, List.getElem?_map, List.getElem?_modify]
  cases r.modules[k]? with
  | none => rfl
  | some m =>
    by_cases here : h = k
    · simp [here, same]
    · simp [here]

theorem Host.Serves.supplies (serves : host.Serves names source asked) :
    host.Supplies (fun _ => True) names fun name m => source name = .ok m := by
  refine ⟨fun _ _ _ => ⟨_, trivial, serves.ask _ _ _⟩, ?_⟩
  intro name r state _ _
  cases has : source name with
  | error e => exact Or.inl ⟨e, _, trivial, serves.refuses has r state⟩
  | ok m =>
    obtain ⟨properties, r', adds, load⟩ := serves.gives has r state
    exact Or.inr ⟨m, properties, r', _, trivial, serves.named has, rfl, adds, load⟩

/-- What comes of asking a host that keeps a log. -/
theorem Host.Serves.logged_load (serves : host.Serves names source asked) {name : String}
    {r r' : Registry} {state state' : σ × Log ε} {result : Except ε Handle}
    (load : host.logged.load name r state = (result, r', state')) :
    state' = (asked state.1 name, state.2 ++ [(name, result)]) ∧
      ((∃ e, source name = .error e ∧ result = .error e ∧ r' = r) ∨
        ∃ m properties, source name = .ok m ∧ result = .ok r.count ∧
          r.Adds ⟨m, .compiled, [], properties⟩ r') := by
  unfold Host.logged at load
  cases has : source name with
  | error e =>
    simp only [serves.refuses has] at load
    cases load
    exact ⟨rfl, Or.inl ⟨e, rfl, rfl, rfl⟩⟩
  | ok m =>
    obtain ⟨properties, r'', adds, given⟩ := serves.gives has r state.1
    simp only [given] at load
    cases load
    exact ⟨rfl, Or.inr ⟨m, properties, rfl, rfl, adds⟩⟩

namespace Linking

open Registry

-- ---------------------------------------------------------------------------
-- Properties of states
-- ---------------------------------------------------------------------------

/-- What has to be shown so that linking keeps a property of states, the host's included. -/
structure Steady (host : Host σ ε) (P : Linking σ → Prop) : Prop where
  ask : ∀ {r state base specifier name state'},
    host.ask state base specifier = (name, state') → P ⟨r, state⟩ → P ⟨r, state'⟩
  load : ∀ {name r state result r' state'}, host.load name r state = (result, r', state') →
    P ⟨r, state⟩ → P ⟨r', state'⟩
  update : ∀ {s h change}, (∀ m, (change m).module = m.module) → P s →
    P (s.mapRegistry (·.update h change))

theorem Steady.cases {P : Linking σ → Prop} (steady : Steady host P) :
    Cases host (fun _ s _ s' => P s → P s') (fun _ _ s _ s' => P s → P s') := by
  have required : ∀ {base request s t found},
      require host base request s = (found, t) → P s → P t := by
    intro base request s t found run before
    obtain ⟨name, state, ask, ⟨_, -, -, rfl⟩ | ⟨-, load⟩⟩ := require_eq run
    · exact steady.ask ask before
    · exact steady.load load (steady.ask ask before)
  have status : ∀ {s h status}, P s → P (s.mapRegistry (·.setStatus h status)) :=
    steady.update fun _ => rfl
  exact {
    unknown := fun _ before => before
    settled := fun _ _ before => before
    failed := fun _ _ _ within before => status (within (status before))
    done := fun _ _ _ within before => steady.update (fun _ => rfl) (within (status before))
    nil := fun before => before
    missing := fun run before => required run before
    blocked := fun run _ visit before => visit (required run before)
    stopped := fun run _ visit _ rest before => rest (visit (required run before))
    cons := fun run _ visit _ rest before => rest (visit (required run before)) }

/-- What a log tells of the state of linking, from the registry `r` and the state `state` of the
host on: what the host was asked, what has failed, and what has been registered. -/
structure Served (source : String → Except ε Module) (asked : σ → String → σ) (r : Registry)
    (state : σ) (s : Linking (σ × Log ε)) : Prop where
  host : s.host.1 = (s.host.2.map Prod.fst).foldl asked state
  refused : ∀ {name e}, (name, .error e) ∈ s.host.2 → source name = .error e
  modules : s.registry.modules.map (·.module) =
    r.modules.map (·.module) ++ s.host.2.filterMap fun x => (source x.1).toOption

theorem Served.start (r : Registry) (state : σ) :
    Served source asked r state ⟨r, (state, [])⟩ := by
  refine ⟨rfl, nofun, ?_⟩
  exact (List.append_nil _).symm

theorem Served.steady (serves : host.Serves names source asked) (r : Registry) (state : σ) :
    Steady host.logged (Served source asked r state) := by
  refine ⟨?_, ?_, ?_⟩
  · intro r' state' base specifier name state'' ask served
    unfold Host.logged at ask
    simp only [serves.ask, Prod.mk.injEq] at ask
    obtain ⟨-, rfl⟩ := ask
    exact served
  · intro name r' state' result r'' state'' load served
    obtain ⟨rfl, outcome⟩ := serves.logged_load load
    refine ⟨?_, ?_, ?_⟩
    · dsimp only
      rw [List.map_append, List.foldl_append, ← served.host]
      rfl
    · intro other e mem
      rcases List.mem_append.1 mem with mem | mem
      · exact served.refused mem
      · cases List.mem_singleton.1 mem
        obtain ⟨e', has, same, -⟩ | ⟨m, properties, -, same, -⟩ := outcome
        · cases same
          exact has
        · cases same
    · have before := served.modules
      dsimp only at before ⊢
      rw [List.filterMap_append, ← List.append_assoc, ← before]
      obtain ⟨e, has, -, rfl⟩ | ⟨m, properties, has, -, adds⟩ := outcome
      · simp [has, Except.toOption]
      · rw [show r'' = r'.add _ from adds]
        simp [Registry.add, has, Except.toOption]
  · intro s h change module served
    exact ⟨served.host, served.refused,
      (Registry.modules_update _ _ module).trans served.modules⟩

-- ---------------------------------------------------------------------------
-- The order of linking
-- ---------------------------------------------------------------------------

variable {r : Registry} {state : σ} {s' : Linking (σ × Log ε)}

/-- A name that was asked for is registered, if the host has a module for it. -/
theorem Served.registered (serves : host.Serves names source asked)
    (served : Served source asked r state s') (indexed : s'.registry.Indexed) {name : String}
    {m : Module} (mem : name ∈ s'.host.2.map Prod.fst) (has : source name = .ok m) :
    s'.registry.find? name ≠ none := by
  obtain ⟨x, there, rfl⟩ := List.mem_map.1 mem
  have added : m ∈ s'.registry.modules.map (·.module) := by
    rw [served.modules]
    exact List.mem_append_right _ (List.mem_filterMap.2 ⟨x, there, by rw [has]; rfl⟩)
  obtain ⟨n, mem, rfl⟩ := List.mem_map.1 added
  obtain ⟨k, found⟩ := List.mem_iff_getElem?.1 mem
  intro absent
  exact indexed.find?_eq_none.1 absent k n found (serves.named has)

/-- What a registered name imports is what it imported before, or what the module imports that the
host has. -/
theorem Served.importsOf (serves : host.Serves names source asked)
    (served : Served source asked r state s') (extends_ : r.Extends s'.registry)
    (indexed : r.Indexed) (indexed' : s'.registry.Indexed) {name : String} {h : Handle}
    {m : Registered} (named : s'.registry.find? name = some h)
    (found : s'.registry.get? h = some m) :
    r.importsOf names (fun name => (source name).toOption) name = some (m.module.imports names) := by
  unfold Registry.importsOf
  cases before : r.find? name with
  | some k =>
    cases (extends_.named before).symm.trans named
    obtain ⟨m₀, found₀, -⟩ := indexed.named before
    obtain ⟨_, kept, same⟩ := extends_.kept found₀
    cases kept.symm.trans found
    simp only [found₀, Option.map_some, same]
  | none =>
    obtain ⟨_, found', rfl⟩ := indexed'.named named
    cases found'.symm.trans found
    have there : m.module ∈ s'.registry.modules.map (·.module) :=
      List.mem_map_of_mem (List.mem_of_getElem? found)
    rw [served.modules] at there
    rcases List.mem_append.1 there with old | new
    · obtain ⟨n, mem, same⟩ := List.mem_map.1 old
      obtain ⟨k, found₀⟩ := List.mem_iff_getElem?.1 mem
      exact absurd (congrArg Module.name same) (indexed.find?_eq_none.1 before k n found₀)
    · obtain ⟨x, -, has⟩ := List.mem_filterMap.1 new
      rw [serves.named (Interface.eq_ok_of_toOption has)]
      dsimp only
      rw [has]
      rfl

/-- A name that is not registered and that the host has nothing for imports nothing. -/
theorem importsOf_refused {name : String} {e : ε} (absent : r.find? name = none)
    (refused : source name = .error e) :
    r.importsOf names (fun name => (source name).toOption) name = none := by
  unfold Registry.importsOf
  simp only [absent, refused]
  rfl

/-- The names that were asked for with success are those of the modules that were added. -/
theorem Served.added (served : Served source asked r state s') {opened : Set String}
    {pending met : List String} {last : String} {cause : ε}
    (order : DepthFirst (r.importsOf names fun name => (source name).toOption) opened pending met
      (some last))
    (asked_ : s'.host.2.map Prod.fst = met.filter (fun name => (r.find? name).isNone) ++ [last])
    (refused : source last = .error cause) :
    ∃ added, List.Forall₂ (fun name m => source name = .ok m)
        (met.filter fun name => (r.find? name).isNone) added ∧
      s'.registry.modules.map (·.module) = r.modules.map (·.module) ++ added := by
  refine ⟨(met.filter fun name => (r.find? name).isNone).filterMap fun name =>
    (source name).toOption, ?_, ?_⟩
  · have given : ∀ name ∈ met.filter (fun name => (r.find? name).isNone),
        ∃ m, source name = .ok m := by
      intro name mem
      obtain ⟨mem, absent⟩ := List.mem_filter.1 mem
      obtain ⟨-, more, has⟩ := order.of_mem mem
      cases answer : source name with
      | ok m => exact ⟨m, rfl⟩
      | error e =>
        cases (importsOf_refused (Option.isNone_iff_eq_none.1 absent) answer).symm.trans has
    generalize met.filter (fun name => (r.find? name).isNone) = loaded at given
    induction loaded with
    | nil => exact .nil
    | cons name loaded ih =>
      obtain ⟨⟨m, has⟩, rest⟩ := List.forall_mem_cons.1 given
      rw [List.filterMap_cons_some (by rw [has]; rfl)]
      exact .cons has (ih rest)
  · have asked' := List.filterMap_map (f := Prod.fst) (g := fun name => (source name).toOption)
      (l := s'.host.2)
    rw [served.modules, ← Function.comp_def (fun name => (source name).toOption) Prod.fst, ← asked',
      asked_, List.filterMap_append, List.filterMap_cons_none (by rw [refused]; rfl),
      List.filterMap_nil, List.append_nil]

variable {root : Handle} {m : Registered} {result : Except (LinkError ε) Unit}

/-- Linking asks the host for the names in depth-first order that are not registered. -/
theorem Links.order (serves : host.Serves names source asked) (indexed : r.Indexed)
    (found : r.get? root = some m) (named : r.find? m.module.name = some root)
    (compiled : m.status = .compiled) (links : Links host.logged root ⟨r, (state, [])⟩ result s')
    (served : Served source asked r state s') :
    ∃ met missing,
      DepthFirst (r.importsOf names fun name => (source name).toOption) r.passed [m.module.name]
        met missing ∧
      s'.host.2.map Prod.fst =
        met.filter (fun name => (r.find? name).isNone) ++ missing.toList := by
  obtain ⟨steady, grows⟩ :=
    (grows_cases serves.supplies.logged).links links ⟨trivial, indexed⟩
  let imports := r.importsOf names fun name => (source name).toOption
  have has : ∀ {name h n}, s'.registry.find? name = some h → s'.registry.get? h = some n →
      imports name = some (n.module.imports names) := served.importsOf serves grows.extends indexed steady.indexed
  -- the traversal by handles begins with the module itself
  have begins : Registry.toOpen r s'.registry [] root = some m.module := by
    rw [(Frontier.start grows.extends).toOpen found, if_pos compiled]
  have asked_ : s'.host.2.map Prod.fst =
      firstMet names r s'.registry [root] (m.module.imports names) := by
    rw [(links_asked serves.supplies indexed trivial links).order]
    unfold metFrom
    rw [begins]
  have lacks : ∀ name ∈ firstMet names r s'.registry [root] (m.module.imports names),
      s'.registry.find? name = none → imports name = none := by
    intro name mem absent
    rw [← asked_] at mem
    cases answer : source name with
    | error e => exact importsOf_refused (grows.absent absent) answer
    | ok n => exact absurd absent (served.registered serves steady.indexed mem answer)
  obtain ⟨met, missing, order, same⟩ := depthFirst_of_firstMet steady.indexed has [root] _ lacks
  rw [passedOver_cons steady.indexed (grows.named named),
    passedOver_nil grows.extends indexed steady.indexed] at order
  have fresh : m.module.name ∉ r.passed := by
    rintro ⟨h, n, named', found', past⟩
    rw [named] at named'
    cases named'
    rw [found] at found'
    cases found'
    exact past compiled
  have own : imports m.module.name = some (m.module.imports names) := by
    obtain ⟨m', found', module⟩ := grows.extends.kept found
    rw [has (grows.named named) found', module]
  refine ⟨m.module.name :: met, missing, .opens fresh own ?_, ?_⟩
  · rw [List.append_nil]
    exact order
  · rw [asked_, same, List.filter_cons_of_neg (by rw [named]; exact nofun)]

/-- The module `root` is linked under the name that means it. However that ends, the traversal in
depth-first order that starts at this name, and passes over what was linked before, tells what the
host was asked for, and whether and why linking fails. -/
theorem Links.depthFirst (serves : host.Serves names source asked) (indexed : r.Indexed)
    (found : r.get? root = some m) (named : r.find? m.module.name = some root)
    (compiled : m.status = .compiled)
    (links : Links host.logged root ⟨r, (state, [])⟩ result s') :
    ∃ met missing,
      DepthFirst (r.importsOf names fun name => (source name).toOption) r.passed [m.module.name]
        met missing ∧
      s'.host.2.map Prod.fst =
        met.filter (fun name => (r.find? name).isNone) ++ missing.toList ∧
      Served source asked r state s' ∧
      (result = .ok () → missing = none) ∧
      ∀ e, result = .error e → ∃ name cause, missing = some name ∧ e = .host cause ∧
        source name = .error cause := by
  have served : Served source asked r state s' :=
    (Served.steady serves r state).cases.links links (.start r state)
  obtain ⟨steady, grows⟩ :=
    (grows_cases serves.supplies.logged).links links ⟨trivial, indexed⟩
  obtain ⟨log, loaded⟩ :=
    (loaded_cases serves.supplies).links links ⟨trivial, indexed⟩ ⟨m, found⟩
  have appended : s'.host.2 = log := loaded.appended
  obtain ⟨met, missing, order, asked_⟩ := links.order serves indexed found named compiled served
  refine ⟨met, missing, order, asked_, served, ?_, ?_⟩
  · -- what is asked for is registered then, but the missing name has no module
    rintro rfl
    cases missing with
    | none => rfl
    | some name =>
      have mem : name ∈ log.map Prod.fst := by
        rw [← appended, asked_]
        exact List.mem_append_right _ (List.mem_singleton_self name)
      obtain ⟨x, there, rfl⟩ := List.mem_map.1 mem
      obtain ⟨h, -, registered⟩ := loaded.done () rfl x there
      obtain ⟨n, found', -⟩ := steady.indexed.named registered
      have has := served.importsOf serves grows.extends indexed steady.indexed registered found'
      cases order.lacks.symm.trans has
  · -- what failed is the last name asked for, and the last one of the order
    rintro e rfl
    obtain ⟨earlier, name, cause, rfl, rfl, -⟩ := loaded.failed e rfl
    have last : (name, .error cause) ∈ earlier ++ [(name, .error cause)] :=
      List.mem_append_right _ (List.mem_singleton_self _)
    have refused : source name = .error cause := served.refused (appended ▸ last)
    rw [appended, List.map_append] at asked_
    refine ⟨name, cause, ?_, rfl, refused⟩
    cases missing with
    | none =>
      rw [Option.toList_none, List.append_nil] at asked_
      have mem : name ∈ met :=
        List.mem_of_mem_filter (asked_ ▸ List.mem_append_right _ (List.mem_singleton_self name))
      obtain ⟨-, more, there⟩ := order.of_mem mem
      cases (importsOf_refused (loaded.fresh _ last) refused).symm.trans there
    | some last =>
      obtain ⟨-, same⟩ := List.append_inj' asked_ rfl
      exact congrArg some (List.singleton_inj.1 same).symm

/-- Evaluation does not notice that the host keeps a log. -/
theorem evaluate_logged (host : Host σ ε) (depth : Nat) (root : Handle) (r : Registry) (state : σ) :
    evaluate host depth root ⟨r, state⟩ =
      (evaluate host.logged depth root ⟨r, (state, [])⟩).map fun x =>
        (x.1, ⟨x.2.registry, x.2.host.1⟩) := by
  have alike : Alike (fun s t => t.registry = s.registry ∧ t.host.1 = s.host)
      (link host depth root ⟨r, state⟩) (link host.logged depth root ⟨r, (state, [])⟩) :=
    (logged_simulates host).link ⟨rfl, rfl⟩
  unfold evaluate
  generalize link host depth root ⟨r, state⟩ = o, link host.logged depth root ⟨r, (state, [])⟩ = o'
    at alike
  cases alike with
  | tooDeep => rfl
  | @ended result s t same =>
    obtain ⟨registry, state'⟩ := same
    cases result with
    | error e => simp only [Option.map_some, registry, state']
    | ok => simp only [Option.map_some, mapRegistry, registry, state']

end Linking

end Esm
