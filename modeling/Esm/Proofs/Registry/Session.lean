-- SUMMARY: Serving a module serialized cannot be told from serving its source, whatever calls are made.
import Esm.Registry.MemoryHost
import Esm.Proofs.Encoding.Capacity
import Esm.Proofs.Registry.Records
import Esm.Proofs.Registry.Retry
import Mathlib.Data.List.Permutation

/-!
# Sessions

A session is a sequence of calls that compile, link and evaluate modules, with the answer to every
call and what there is after it. A host may serve each module as its source or in the serialized
form that the source compiles to, in either byte order. As long as the modules are not too large for
the format, no session tells how they are served.
-/

namespace Esm

namespace Linking

variable {σ ε : Type}

/-- A call on a registry. -/
inductive Call where
  | compile (source name : String)
  | link (h : Handle)
  | evaluate (h : Handle)
deriving DecidableEq, Repr

/-- What a call is answered with. -/
inductive Answer (ε : Type) where
  | compiled (result : Except SyntaxError Handle)
  | linked (result : Except (LinkError ε) Unit)
  | evaluated (result : Except (LinkError ε) Unit)

/-- Make a call, if the depth allowed suffices. -/
def call (host : Host σ ε) (depth : Nat) (s : Linking σ) : Call → Option (Answer ε × Linking σ)
  | .compile source name =>
    match s.registry.compile source name with
    | .error e => some (.compiled (.error e), s)
    | .ok (r, h) => some (.compiled (.ok h), { s with registry := r })
  | .link h => (Linking.link host depth h s).map fun o => (.linked o.1, o.2)
  | .evaluate h => (Linking.evaluate host depth h s).map fun o => (.evaluated o.1, o.2)

/-- Make calls one after the other. What comes of it is the answer to every call, with what there is
after it. -/
def session (host : Host σ ε) (depth : Nat) :
    List Call → Linking σ → Option (List (Answer ε × Linking σ))
  | [], _ => some []
  | c :: calls, s =>
    match call host depth s c with
    | none => none
    | some (answer, s) => (session host depth calls s).map ((answer, s) :: ·)

-- ---------------------------------------------------------------------------
-- Depth
-- ---------------------------------------------------------------------------

variable {host : Host σ ε}

/-- What evaluating a module adds to linking it. -/
def evaluated (h : Handle) (o : Except (LinkError ε) Unit × Linking σ) :
    Except (LinkError ε) Unit × Linking σ :=
  (o.1, if o.1.isOk then o.2.mapRegistry (·.markEvaluated [h]) else o.2)

theorem evaluate_eq_map (depth : Nat) (h : Handle) (s : Linking σ) :
    evaluate host depth h s = (link host depth h s).map (evaluated h) := by
  unfold evaluate
  cases link host depth h s with
  | none => rfl
  | some outcome =>
    obtain ⟨result, t⟩ := outcome
    cases result with
    | error e => rfl
    | ok => rfl

theorem call_mono {depth depth' : Nat} (le : depth ≤ depth') {c : Call} {s : Linking σ}
    {o : Answer ε × Linking σ} (made : call host depth s c = some o) :
    call host depth' s c = some o := by
  cases c with
  | compile source name => exact made
  | link h =>
    obtain ⟨outcome, run, rfl⟩ := Option.map_eq_some_iff.1 made
    exact Option.map_eq_some_iff.2 ⟨outcome, link_mono le run, rfl⟩
  | evaluate h =>
    obtain ⟨outcome, run, rfl⟩ := Option.map_eq_some_iff.1 made
    rw [evaluate_eq_map] at run
    obtain ⟨linked, run', rfl⟩ := Option.map_eq_some_iff.1 run
    refine Option.map_eq_some_iff.2 ⟨_, ?_, rfl⟩
    rw [evaluate_eq_map, link_mono le run']
    rfl

/-- A call keeps the index in step, if what the host loads does. -/
theorem call_indexed (kept : Kept host Registry.Indexed) {depth : Nat} {c : Call} {s : Linking σ}
    {o : Answer ε × Linking σ} (made : call host depth s c = some o)
    (indexed : s.registry.Indexed) : o.2.registry.Indexed := by
  cases c with
  | compile source name =>
    unfold call at made
    dsimp only at made
    split at made
    · cases made
      exact indexed
    · rename_i r h compiled
      cases made
      obtain ⟨m, -, rfl, -⟩ := Registry.map_register_eq_ok compiled
      exact indexed.register m
  | link h =>
    obtain ⟨outcome, run, rfl⟩ := Option.map_eq_some_iff.1 made
    exact kept.link ⟨depth, run⟩ indexed
  | evaluate h =>
    obtain ⟨outcome, run, rfl⟩ := Option.map_eq_some_iff.1 made
    exact kept.evaluate run indexed

/-- If linking always ends, so does every call. -/
theorem call_ends (ends : ∀ h s, s.registry.Indexed → ∃ result s', Links host h s result s')
    (c : Call) {s : Linking σ} (indexed : s.registry.Indexed) :
    ∃ depth o, call host depth s c = some o := by
  cases c with
  | compile source name =>
    unfold call
    dsimp only
    cases s.registry.compile source name with
    | error e => exact ⟨0, _, rfl⟩
    | ok registered => exact ⟨0, _, rfl⟩
  | link h =>
    obtain ⟨result, s', depth, run⟩ := ends h s indexed
    exact ⟨depth, _, Option.map_eq_some_iff.2 ⟨_, run, rfl⟩⟩
  | evaluate h =>
    obtain ⟨result, s', depth, run⟩ := ends h s indexed
    refine ⟨depth, _, Option.map_eq_some_iff.2 ⟨evaluated h (result, s'), ?_, rfl⟩⟩
    rw [evaluate_eq_map, run]
    rfl

theorem session_mono {depth depth' : Nat} (le : depth ≤ depth') {calls : List Call}
    {s : Linking σ} {answers : List (Answer ε × Linking σ)}
    (run : session host depth calls s = some answers) :
    session host depth' calls s = some answers := by
  induction calls generalizing s answers with
  | nil => exact run
  | cons c calls ih =>
    unfold session at run ⊢
    cases made : call host depth s c with
    | none => simp only [made, reduceCtorEq] at run
    | some o =>
      simp only [made] at run
      simp only [call_mono le made]
      obtain ⟨rest, run', rfl⟩ := Option.map_eq_some_iff.1 run
      exact Option.map_eq_some_iff.2 ⟨rest, ih run', rfl⟩

/-- If linking always ends, so does every session. -/
theorem session_ends (kept : Kept host Registry.Indexed)
    (ends : ∀ h s, s.registry.Indexed → ∃ result s', Links host h s result s') (calls : List Call)
    {s : Linking σ} (indexed : s.registry.Indexed) :
    ∃ depth answers, session host depth calls s = some answers := by
  induction calls generalizing s with
  | nil => exact ⟨0, [], rfl⟩
  | cons c calls ih =>
    obtain ⟨depth, ⟨answer, s'⟩, made⟩ := call_ends ends c indexed
    obtain ⟨depth', answers, run⟩ := ih (call_indexed kept made indexed)
    refine ⟨max depth depth', (answer, s') :: answers, ?_⟩
    unfold session
    rw [call_mono (Nat.le_max_left depth depth') made]
    exact Option.map_eq_some_iff.2
      ⟨answers, session_mono (Nat.le_max_right depth depth') run, rfl⟩

end Linking

-- ---------------------------------------------------------------------------
-- Hosts that serve origins
-- ---------------------------------------------------------------------------

open MemoryHost (Origin)

/-- The host that makes the module of a name from its origin. It keeps a log of the names it was
asked for. -/
def Host.serving (names : String → String → String) (origins : String → Option Origin) :
    Host (List String) MemoryHost.Error where
  ask log base specifier := (names base specifier, log)
  load name r log :=
    match origins name with
    | none => (.error (.missing name), r, log ++ [name])
    | some origin =>
      match MemoryHost.produce name r origin with
      | .error e => (.error e, r, log ++ [name])
      | .ok (r, h) => (.ok h, r, log ++ [name])

/-- A source, or the serialized form of the module that it compiles to if there is one and it is to
be served so. -/
def served (choice : Option ByteOrder) (name text : String) : Origin :=
  match choice, Module.compile text name with
  | some order, .ok m => .serialized order (m.encode order)
  | _, _ => .source text none

/-- The host that serves the modules of named sources, some of them serialized. -/
def Host.mixed (names : String → String → String) (sources : List (String × String))
    (choice : String → Option ByteOrder) : Host (List String) MemoryHost.Error :=
  .serving names fun name => (sources.lookup name).map (served (choice name) name)

/-- The host that serves all modules as their sources. -/
def Host.plain (names : String → String → String) (sources : List (String × String)) :
    Host (List String) MemoryHost.Error :=
  .mixed names sources fun _ => none

/-- All modules that are served serialized fit the format. -/
def Fits (sources : List (String × String)) (choice : String → Option ByteOrder) : Prop :=
  ∀ {name text m}, (choice name).isSome → sources.lookup name = some text →
    Module.compile text name = .ok m → m.Encodable

/-- Every module fits the format that comes from a source of less than four gigabytes. -/
theorem fits_of_size {sources : List (String × String)} {choice : String → Option ByteOrder}
    (size : ∀ {name text}, (choice name).isSome → sources.lookup name = some text →
      text.utf8ByteSize < UInt32.size ∧ Encoding.Short name) : Fits sources choice := by
  intro name text m chosen found compiled
  obtain ⟨few, short⟩ := size chosen found
  exact Module.encodable_of_compile compiled few short

/-- A module that fits the format is produced alike from its source and from its serialized form. -/
theorem produce_served {choice : Option ByteOrder} {name text : String}
    (size : ∀ m, choice.isSome → Module.compile text name = .ok m → m.Encodable) (r : Registry) :
    MemoryHost.produce name r (served choice name text) =
      MemoryHost.produce name r (served none name text) := by
  unfold served
  cases choice with
  | none => rfl
  | some order =>
    cases compiled : Module.compile text name with
    | error e => rfl
    | ok m =>
      have read := Registry.read_written (size m rfl compiled)
        (Registry.Made.compiled compiled).indexed order r
      unfold MemoryHost.produce Registry.compile
      dsimp only [Option.getD_none]
      rw [read, compiled]
      rfl

theorem Host.mixed_eq_plain {sources : List (String × String)} {choice : String → Option ByteOrder}
    (fits : Fits sources choice) (names : String → String → String) :
    Host.mixed names sources choice = Host.plain names sources := by
  unfold plain mixed serving
  congr
  funext name r log
  cases found : sources.lookup name with
  | none => simp only [found, Option.map_none]
  | some text =>
    have same := produce_served (fun m chosen compiled => fits chosen found compiled) r
    simp only [found, Option.map_some, same]

-- ---------------------------------------------------------------------------
-- Loading from sources
-- ---------------------------------------------------------------------------

theorem Host.plain_load {sources : List (String × String)} {name text : String} {m : Module}
    (found : sources.lookup name = some text) (compiled : Module.compile text name = .ok m)
    (names : String → String → String) (r : Registry) (log : List String) :
    (Host.plain names sources).load name r log =
      (.ok r.count, (r.register m).1, log ++ [name]) := by
  unfold plain mixed serving served MemoryHost.produce Registry.compile
  simp only [found, Option.map_some, Option.getD_none, compiled]
  rfl

theorem Host.plain_supplies (names : String → String → String) (sources : List (String × String)) :
    (Host.plain names sources).Supplies (fun _ => True) names
      (CompiledFrom fun name => sources.lookup name) := by
  refine ⟨fun _ _ _ => ⟨_, trivial, rfl⟩, ?_⟩
  intro name r log _ _
  cases found : sources.lookup name with
  | none =>
    refine Or.inl ⟨.missing name, log ++ [name], trivial, ?_⟩
    unfold plain mixed serving
    simp only [found, Option.map_none]
  | some text =>
    cases compiled : Module.compile text name with
    | error e =>
      refine Or.inl ⟨.syntaxError e, log ++ [name], trivial, ?_⟩
      unfold plain mixed serving served MemoryHost.produce Registry.compile
      simp only [found, Option.map_some, Option.getD_none, compiled]
      rfl
    | ok m =>
      exact Or.inr ⟨m, [], (r.register m).1, log ++ [name], trivial, Module.name_compile compiled,
        ⟨text, found, compiled⟩, Registry.adds_register r m, plain_load found compiled names r log⟩

theorem Host.plain_kept (names : String → String → String) (sources : List (String × String)) :
    Linking.Kept (Host.plain names sources) Registry.Indexed := by
  refine ⟨?_, fun r h status indexed => indexed.update h fun _ => rfl,
    fun r h dependencies indexed => indexed.update h fun _ => rfl⟩
  intro name r log absent indexed
  obtain ⟨cause, log', -, load⟩ | ⟨m, properties, r', log', -, -, -, adds, load⟩ :=
    (plain_supplies names sources).load log trivial absent
  · rw [load]
    exact indexed
  · rw [load]
    exact adds.indexed indexed

/-- Finitely many sources compile to finitely many modules, so that linking ends. -/
theorem Host.plain_ends (names : String → String → String) (sources : List (String × String))
    (h : Handle) (s : Linking (List String)) (indexed : s.registry.Indexed) :
    ∃ result s', Linking.Links (Host.plain names sources) h s result s' := by
  have offered : ∀ {name m}, CompiledFrom (fun name => sources.lookup name) name m →
      m ∈ sources.filterMap fun p => (Module.compile p.2 p.1).toOption := by
    rintro name m ⟨text, found, compiled⟩
    obtain ⟨before, after, rfl, -⟩ := List.lookup_eq_some_iff.1 found
    refine List.mem_filterMap.2 ⟨(name, text), by simp, ?_⟩
    rw [compiled]
    rfl
  exact Linking.links_of_finite (plain_supplies names sources) ⟨trivial, indexed⟩
    (Registry.inReach_finite s.registry h offered)

-- ---------------------------------------------------------------------------
-- Modules that do not fit
-- ---------------------------------------------------------------------------

section

variable {sources : List (String × String)} {choice : String → Option ByteOrder}
  {name text : String} {m : Module}

/-- A module that is served serialized and does not fit the format is never produced. -/
theorem produce_served_ne (chosen : (choice m.name).isSome) (large : ¬ m.Encodable)
    {asked text : String} {r r' : Registry} {h : Handle}
    (produced : MemoryHost.produce asked r (served (choice asked) asked text) = .ok (r', h)) :
    ∃ m', m' ≠ m ∧ r' = (r.register m').1 := by
  unfold served at produced
  split at produced
  · -- serialized
    rename_i order m' _ _
    unfold MemoryHost.produce Registry.read at produced
    dsimp only at produced
    cases decoded : Module.decode order (m'.encode order) with
    | error fault =>
      rw [decoded] at produced
      cases produced
    | ok m₁ =>
      rw [decoded] at produced
      cases produced
      refine ⟨m₁, ?_, rfl⟩
      rintro rfl
      exact large (Module.decode_eq_ok.1 decoded).2.1
  · -- source
    rename_i unserved
    unfold MemoryHost.produce Registry.compile at produced
    dsimp only [Option.getD_none] at produced
    cases compiled : Module.compile text asked with
    | error e =>
      rw [compiled] at produced
      cases produced
    | ok m₁ =>
      rw [compiled] at produced
      cases produced
      refine ⟨m₁, ?_, rfl⟩
      rintro rfl
      rw [Module.name_compile compiled] at chosen
      obtain ⟨order, chosen⟩ := Option.isSome_iff_exists.1 chosen
      exact unserved order m₁ chosen compiled

theorem mixed_kept (chosen : (choice m.name).isSome) (large : ¬ m.Encodable)
    (names : String → String → String) :
    Linking.Kept (Host.mixed names sources choice) (Registry.Records (· ≠ m)) := by
  refine ⟨?_, fun r h status others => others.update h fun _ => rfl,
    fun r h dependencies others => others.update h fun _ => rfl⟩
  intro asked r log _ others
  unfold Host.mixed Host.serving
  dsimp only
  cases sources.lookup asked with
  | none => exact others
  | some text =>
    dsimp only [Option.map_some]
    cases produced : MemoryHost.produce asked r (served (choice asked) asked text) with
    | error e => exact others
    | ok p =>
      obtain ⟨m', other, registered⟩ := produce_served_ne chosen large produced
      dsimp only
      rw [registered]
      intro h x present
      rw [Registry.get?_register] at present
      split at present
      · cases present
        exact other
      · exact others h x present

/-- Requests that all mean one module, which is not merely compiled. -/
theorem linkRequests_settled {σ ε : Type} (host : Host σ ε) (base : String) {s : Linking σ}
    {h : Handle} {m : Registered} (meant : ∀ request, host.ask s.host base request = (name, s.host))
    (named : s.registry.find? name = some h) (present : s.registry.get? h = some m)
    (past : m.status ≠ .compiled) (depth : Nat) (requests : List String) :
    ∃ hs, Linking.linkRequests host (Linking.link host depth) base requests s =
      some (.ok hs, s) := by
  induction requests with
  | nil => exact ⟨[], rfl⟩
  | cons request requests ih =>
    obtain ⟨hs, rest⟩ := ih
    exact ⟨h :: hs, Linking.linkRequests_cons (Linking.require_registered (meant request) named)
      (Linking.link_settled present past) rest⟩

/-- Linking a module that requests one other, where that is served as its source and all it requests
is itself. -/
theorem link_plain (found : sources.lookup name = some text)
    (compiled : Module.compile text name = .ok m) {main : Module} {request : String}
    (requests : main.interface.requests = [request]) (other : main.name ≠ name) :
    ∃ s x, Linking.link (Host.plain (fun _ _ => name) sources) 2 0
        ⟨(Registry.empty.register main).1, []⟩ = some (.ok (), s) ∧
      s.registry.get? 1 = some x ∧ x.module = m := by
  let host := Host.plain (fun _ _ => name) sources
  let s₀ : Linking (List String) := ⟨(Registry.empty.register main).1, []⟩
  let s₁ : Linking (List String) := ⟨((s₀.marked 0).registry.register m).1, [name]⟩
  have absent : (s₀.marked 0).registry.find? name = none := by
    show ((Registry.empty.register main).1.setStatus 0 .linking).find? name = none
    rw [Registry.find?_setStatus, Registry.find?_register, if_neg other]
    rfl
  have loaded : host.load name (s₀.marked 0).registry (s₀.marked 0).host =
      (.ok 1, s₁.registry, s₁.host) := Host.plain_load found compiled _ _ _
  have required : Linking.require host main.name request (s₀.marked 0) = (.ok 1, s₁) :=
    Linking.require_loaded rfl absent loaded
  have named : (s₁.marked 1).registry.find? name = some 1 := by
    show (s₁.registry.setStatus 1 .linking).find? name = some 1
    rw [Registry.find?_setStatus, Registry.find?_register, if_pos (Module.name_compile compiled)]
    rfl
  have present : (s₁.marked 1).registry.get? 1 = some ⟨m, .linking, [], []⟩ := rfl
  obtain ⟨hs, own⟩ := linkRequests_settled host m.name (fun _ => rfl) named present nofun 0
    m.interface.requests
  have visited : Linking.link host 1 1 s₁ = some (.ok (), (s₁.marked 1).linkedTo 1 hs) :=
    Linking.link_done (m := ⟨m, .compiled, [], []⟩) rfl rfl own
  have all : Linking.linkRequests host (Linking.link host 1) main.name main.interface.requests
      (s₀.marked 0) = some (.ok [1], (s₁.marked 1).linkedTo 1 hs) := by
    rw [requests]
    exact Linking.linkRequests_cons required visited rfl
  exact ⟨_, ⟨m, .linked, hs, []⟩, Linking.link_done (m := ⟨main, .compiled, [], []⟩) rfl rfl all,
    rfl, rfl⟩

/-- A module that does not fit the format is told by importing it. -/
theorem fits_of_session
    (same : ∀ names depth calls s, Linking.session (Host.mixed names sources choice) depth calls s =
      Linking.session (Host.plain names sources) depth calls s) : Fits sources choice := by
  intro name text m chosen found compiled
  by_contra large
  let main : Module := ⟨name ++ "'", ⟨["a"], [], []⟩,
    ⟨["import", "'a'"], [⟨.identifier, 0⟩, ⟨.string, 1⟩]⟩⟩
  have other : main.name ≠ name := by
    intro h
    have := congrArg String.length h
    simp [main] at this
  have requests : main.interface.requests = ["a"] := rfl
  obtain ⟨s, x, run, present, rfl⟩ := link_plain found compiled requests other
  have registered : Registry.empty.compile "import'a'" main.name =
      .ok ((Registry.empty.register main).1, 0) := by
    unfold Registry.compile
    rw [compile_import]
    rfl
  have plain : Linking.session (Host.plain (fun _ _ => name) sources) 2
      [.compile "import'a'" main.name, .link 0] ⟨.empty, []⟩ =
      some [(.compiled (.ok 0), ⟨(Registry.empty.register main).1, []⟩), (.linked (.ok ()), s)] := by
    simp only [Linking.session, Linking.call, registered, run, Option.map_some]
  have mixed := (same (fun _ _ => name) 2 _ _).trans plain
  simp only [Linking.session, Linking.call, registered] at mixed
  cases run' : Linking.link (Host.mixed (fun _ _ => name) sources choice) 2 0
      ⟨(Registry.empty.register main).1, []⟩ with
  | none => simp only [run', Option.map_none, reduceCtorEq] at mixed
  | some outcome =>
    simp only [run', Option.map_some, Option.some.injEq, List.cons.injEq, Prod.mk.injEq] at mixed
    obtain ⟨-, ⟨-, rfl⟩, -⟩ := mixed
    have start : (Registry.empty.register main).1.Records (· ≠ x.module) := by
      intro h y registered
      obtain ⟨rfl, rfl⟩ := Registry.get?_register_empty registered
      intro same
      exact other ((congrArg Module.name same).trans (Module.name_compile compiled))
    have others := (mixed_kept (Module.name_compile compiled ▸ chosen) large
      (fun _ _ => name)).link ⟨2, run'⟩ start
    exact others 1 x present rfl

end

/-- Whatever imports mean, a host that serves some modules serialized and a host that serves all of
them as their sources answer every sequence of calls alike and leave the same behind after each call,
exactly if the modules that are served serialized fit the format. Every such sequence ends, from any
registry whose index is in step. -/
theorem mixed_sessions (sources : List (String × String)) (choice : String → Option ByteOrder) :
    ((∀ names depth calls s, Linking.session (Host.mixed names sources choice) depth calls s =
        Linking.session (Host.plain names sources) depth calls s) ↔ Fits sources choice) ∧
      ∀ names calls s, s.registry.Indexed → ∃ depth answers, ∀ depth', depth ≤ depth' →
        Linking.session (Host.plain names sources) depth' calls s = some answers := by
  refine ⟨⟨fits_of_session, ?_⟩, ?_⟩
  · intro fits names depth calls s
    rw [Host.mixed_eq_plain fits names]
  · intro names calls s indexed
    obtain ⟨depth, answers, run⟩ := Linking.session_ends (Host.plain_kept names sources)
      (Host.plain_ends names sources) calls indexed
    exact ⟨depth, answers, fun depth' le => Linking.session_mono le run⟩

/-- So they do if every source that is served serialized, and its name, is shorter than four
gigabytes. -/
theorem session_mixed_of_size {sources : List (String × String)}
    {choice : String → Option ByteOrder}
    (size : ∀ {name text}, (choice name).isSome → sources.lookup name = some text →
      text.utf8ByteSize < UInt32.size ∧ Encoding.Short name)
    (names : String → String → String) (depth : Nat) (calls : List Linking.Call)
    (s : Linking (List String)) :
    Linking.session (Host.mixed names sources choice) depth calls s =
      Linking.session (Host.plain names sources) depth calls s := by
  rw [Host.mixed_eq_plain (fits_of_size size)]

/-- A module that imports itself, served high byte first and imported by another one. -/
theorem mixed_sessions_self_import :
    let sources := [("a", "import'a'")]
    let choice : String → Option ByteOrder := fun _ => some .swapped
    let code : Code := ⟨["import", "'a'"], [⟨.identifier, 0⟩, ⟨.string, 1⟩]⟩
    let main : Registered := ⟨⟨"main", ⟨["a"], [], []⟩, code⟩, .compiled, [], []⟩
    let a : Registered := ⟨⟨"a", ⟨["a"], [], []⟩, code⟩, .evaluated, [1], []⟩
    let after : Registry := ⟨[{ main with status := .evaluated, dependencies := [1] }, a],
      [("main", 0), ("a", 1)]⟩
    Fits sources choice ∧
      Linking.session (Host.mixed (fun _ specifier => specifier) sources choice) 2
          [.compile "import'a'" "main", .evaluate 0, .link 7] ⟨.empty, []⟩ =
        some [(.compiled (.ok 0), ⟨⟨[main], [("main", 0)]⟩, []⟩),
          (.evaluated (.ok ()), ⟨after, ["a"]⟩),
          (.linked (.error (.unknownHandle 7)), ⟨after, ["a"]⟩)] := by
  intro sources choice code main a after
  have fits : Fits sources choice := by
    intro name text m _ found compiled
    obtain ⟨rfl, rfl⟩ : name = "a" ∧ text = "import'a'" := by
      by_cases same : name = "a"
      · simpa [sources, same, eq_comm] using found
      · have : (name == "a") = false := by simpa using same
        simp [sources, List.lookup_cons, this] at found
    exact Module.encodable_of_compile compiled (by decide) (by decide)
  refine ⟨fits, ?_⟩
  rw [(mixed_sessions sources choice).1.2 fits]
  let host := Host.plain (fun _ specifier => specifier) sources
  let s₀ : Linking (List String) := ⟨⟨[main], [("main", 0)]⟩, []⟩
  let s₁ : Linking (List String) :=
    ⟨⟨[{ main with status := .linking }, { a with status := .compiled, dependencies := [] }],
      [("main", 0), ("a", 1)]⟩, ["a"]⟩
  have registered : Registry.empty.compile "import'a'" "main" = .ok (s₀.registry, 0) := by
    unfold Registry.compile
    rw [compile_import]
    rfl
  have loaded : host.load "a" (s₀.marked 0).registry (s₀.marked 0).host =
      (.ok 1, s₁.registry, s₁.host) := Host.plain_load rfl (compile_import "a") _ _ _
  have required : Linking.require host "main" "a" (s₀.marked 0) = (.ok 1, s₁) :=
    Linking.require_loaded rfl rfl loaded
  have visited : Linking.link host 1 1 s₁ = some (.ok (), (s₁.marked 1).linkedTo 1 [1]) :=
    Linking.link_done rfl rfl (Linking.linkRequests_cons rfl (Linking.link_settled rfl nofun) rfl)
  have linked : Linking.link host 2 0 s₀ =
      some (.ok (), ((s₁.marked 1).linkedTo 1 [1]).linkedTo 0 [1]) :=
    Linking.link_done rfl rfl (Linking.linkRequests_cons required visited rfl)
  have evaluated : Linking.evaluate host 2 0 s₀ = some (.ok (), ⟨after, ["a"]⟩) := by
    rw [Linking.evaluate_eq_map, linked]
    cbv
  simp only [Linking.session, Linking.call, registered]
  rw [evaluated]
  rfl

end Esm
