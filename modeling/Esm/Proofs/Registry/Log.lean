-- SUMMARY: A log of what a host is asked to load: no name twice, and a failure only at its end.
import Mathlib.Data.List.Nodup
import Esm.Proofs.Registry.Simulation
import Esm.Proofs.Registry.Supply

/-!
# Log

Any host can keep a log of the names it is asked for and of what came of each; linking does not
notice. If the host supplies names, no name is in the log of a linking twice, every name in it was
not registered before, and only the last one can have failed, in which case the linking fails for
that cause.
-/

namespace Esm

variable {σ ε : Type}

/-- The names that a host was asked for, each with what came of it. -/
abbrev Log (ε : Type) := List (String × Except ε Handle)

/-- The host that keeps a log of what it is asked for. -/
def Host.logged (host : Host σ ε) : Host (σ × Log ε) ε where
  ask state base specifier :=
    let (name, state') := host.ask state.1 base specifier
    (name, state', state.2)
  load name r state :=
    let (result, r, state') := host.load name r state.1
    (result, r, state', state.2 ++ [(name, result)])

theorem Host.logged_load {host : Host σ ε} {name : String} {r r' : Registry}
    {state state' : σ × Log ε} {result : Except ε Handle}
    (load : host.logged.load name r state = (result, r', state')) :
    state'.2 = state.2 ++ [(name, result)] := by
  unfold Host.logged at load
  cases load
  rfl

theorem Host.logged_ask {host : Host σ ε} {state state' : σ × Log ε} {base specifier name : String}
    (ask : host.logged.ask state base specifier = (name, state')) : state'.2 = state.2 := by
  unfold Host.logged at ask
  cases ask
  rfl

theorem Host.Supplies.logged {host : Host σ ε} {States : σ → Prop}
    {names : String → String → String} {offers : String → Module → Prop}
    (supplies : host.Supplies States names offers) :
    host.logged.Supplies (fun state => States state.1) names offers := by
  refine ⟨fun {state} base specifier hstate => ?_, ?_⟩
  · obtain ⟨asked, hasked, ask⟩ := supplies.ask base specifier hstate
    refine ⟨(asked, state.2), hasked, ?_⟩
    unfold Host.logged
    simp only [ask]
  intro name r state hstate absent
  unfold Host.logged
  obtain ⟨cause, state', hstate', load⟩ |
    ⟨m, properties, r', state', hstate', named, offered, adds, load⟩ := supplies.load state.1 hstate absent
  · exact Or.inl ⟨cause, (state', state.2 ++ [(name, .error cause)]), hstate', by simp only [load]⟩
  · exact Or.inr ⟨m, properties, r', (state', state.2 ++ [(name, .ok r.count)]), hstate', named,
      offered, adds, by simp only [load]⟩

namespace Linking

/-- Linking does not notice that the host keeps a log. -/
theorem logged_simulates (host : Host σ ε) : Simulates host host.logged
    (fun s t => t.registry = s.registry ∧ t.host.1 = s.host) := by
  refine ⟨?_, ?_, ?_, ?_⟩
  · rintro s t ⟨registry, -⟩ h
    rw [registry]
  · rintro s ⟨r, state, log⟩ ⟨rfl, rfl⟩ base request
    unfold require
    dsimp only [Host.logged]
    cases s.registry.find? (host.ask s.host base request).1 with
    | none => exact ⟨_, _, _, rfl, rfl, rfl, rfl⟩
    | some h => exact ⟨_, _, _, rfl, rfl, rfl, rfl⟩
  · rintro s t ⟨registry, state⟩ h status
    exact ⟨congrArg (·.setStatus h status) registry, state⟩
  · rintro s t ⟨registry, state⟩ h dependencies
    refine ⟨?_, state⟩
    unfold linkedTo mapRegistry
    rw [registry]

/-- What a log of a linking looks like. -/
structure Loaded {α : Type} (s s' : Linking (σ × Log ε)) (result : Except (LinkError ε) α)
    (log : Log ε) : Prop where
  appended : s'.host.2 = s.host.2 ++ log
  fresh : ∀ x ∈ log, s.registry.find? x.1 = none
  once : (log.map Prod.fst).Nodup
  done : ∀ a, result = .ok a → ∀ x ∈ log, ∃ h, x.2 = .ok h ∧ s'.registry.find? x.1 = some h
  failed : ∀ e, result = .error e → ∃ earlier name cause, log = earlier ++ [(name, .error cause)] ∧
    e = .host cause ∧ ∀ x ∈ earlier, ∃ h, x.2 = .ok h

variable {α : Type} {s t u : Linking (σ × Log ε)}

/-- Nothing is loaded if the host is not asked. -/
theorem Loaded.nil {result : Except (LinkError ε) α} (ok : result.isOk = true)
    (same : t.host.2 = s.host.2) : Loaded s t result [] := by
  refine ⟨by rw [same, List.append_nil], nofun, List.nodup_nil, fun _ _ => nofun, ?_⟩
  intro e failed
  rw [failed] at ok
  cases ok

/-- The log of a module is that of its requests: marking it, and putting it back or linking it in the
end, changes no name. -/
theorem Loaded.around {β : Type} {s' t' : Linking (σ × Log ε)} {result : Except (LinkError ε) α}
    {result' : Except (LinkError ε) β} {log : Log ε} (within : Loaded s' t' result log)
    (start : ∀ name, s'.registry.find? name = s.registry.find? name)
    (finish : ∀ name, t.registry.find? name = t'.registry.find? name)
    (appended : t.host.2 = s.host.2 ++ log) (ok : ∀ b, result' = .ok b → ∃ a, result = .ok a)
    (error : ∀ e, result' = .error e → result = .error e) : Loaded s t result' log := by
  refine ⟨appended, ?_, within.once, ?_, fun e failed => within.failed e (error e failed)⟩
  · intro x mem
    rw [← start]
    exact within.fresh x mem
  · intro b hb x mem
    obtain ⟨a, ha⟩ := ok b hb
    rw [finish]
    exact within.done a ha x mem

/-- The log of what succeeds and then of what follows. No name is in both, for the names in the
first part are registered by then. -/
theorem Loaded.append {β : Type} {a : β} {result : Except (LinkError ε) α} {log log' : Log ε}
    (first : Loaded s t (.ok a : Except (LinkError ε) β) log) (second : Loaded t u result log')
    (grows : s.registry.Grows t.registry) (grows' : t.registry.Grows u.registry) :
    Loaded s u result (log ++ log') := by
  refine ⟨?_, ?_, ?_, ?_, ?_⟩
  · rw [second.appended, first.appended, List.append_assoc]
  · intro x mem
    cases List.mem_append.1 mem with
    | inl mem => exact first.fresh x mem
    | inr mem => exact grows.absent (second.fresh x mem)
  · rw [List.map_append]
    apply List.nodup_append.2
    refine ⟨first.once, second.once, ?_⟩
    intro name mem name' mem' same
    obtain ⟨x, hx, rfl⟩ := List.mem_map.1 mem
    obtain ⟨y, hy, rfl⟩ := List.mem_map.1 mem'
    obtain ⟨h, -, registered⟩ := first.done a rfl x hx
    have absent := second.fresh y hy
    rw [← same, registered] at absent
    cases absent
  · intro b ok x mem
    cases List.mem_append.1 mem with
    | inl mem =>
      obtain ⟨h, loaded, registered⟩ := first.done a rfl x mem
      exact ⟨h, loaded, grows'.named registered⟩
    | inr mem => exact second.done b ok x mem
  · intro e failed
    obtain ⟨earlier, name, cause, rfl, rfl, loaded⟩ := second.failed e failed
    refine ⟨log ++ earlier, name, cause, (List.append_assoc _ _ _).symm, rfl, ?_⟩
    intro x mem
    cases List.mem_append.1 mem with
    | inl mem =>
      obtain ⟨h, loaded, -⟩ := first.done a rfl x mem
      exact ⟨h, loaded⟩
    | inr mem => exact loaded x mem

variable {host : Host σ ε} {States : σ → Prop} {names : String → String → String}
  {offers : String → Module → Prop}

/-- A module that is found puts at most itself into the log. -/
theorem Required.loaded {asked : σ × Log ε} (same : asked.2 = s.host.2) {name : String} {h : Handle}
    (required : Required host.logged offers asked name s t (.ok h)) :
    ∃ log, Loaded s t (.ok h) log := by
  have registered := required.find?
  generalize hfound : (Except.ok h : Except ε Handle) = found at required
  cases required with
  | found _ after => exact ⟨[], .nil rfl (by rw [after, same])⟩
  | failed => cases hfound
  | added absent _ _ _ load =>
    cases hfound
    refine ⟨[(name, .ok s.registry.count)], same ▸ Host.logged_load load, ?_,
      List.nodup_singleton _, ?_, nofun⟩
    · intro x mem
      rw [List.mem_singleton.1 mem]
      exact absent
    · intro a ok x mem
      rw [List.mem_singleton.1 mem]
      exact ⟨_, rfl, registered⟩

/-- A load that fails is put into the log. -/
theorem Required.failure {asked : σ × Log ε} (same : asked.2 = s.host.2) {name : String} {cause : ε}
    (required : Required host.logged offers asked name s t (.error cause)) :
    Loaded s t (.error (.host cause) : Except (LinkError ε) α) [(name, .error cause)] := by
  generalize hfound : (Except.error cause : Except ε Handle) = found at required
  cases required with
  | found => cases hfound
  | added => cases hfound
  | failed absent _ load =>
    cases hfound
    refine ⟨same ▸ Host.logged_load load, ?_, List.nodup_singleton _, nofun, ?_⟩
    · intro x mem
      rw [List.mem_singleton.1 mem]
      exact absent
    · intro e failed
      cases failed
      exact ⟨[], name, cause, rfl, rfl, nofun⟩

/-- Linking through a host that supplies names, however it ends. -/
theorem loaded_cases (supplies : host.Supplies States names offers) :
    Cases host.logged
      (fun h s result s' => s.InStep (States ·.1) → (∃ m, s.registry.get? h = some m) →
        ∃ log, Loaded s s' result log)
      (fun _ _ s result s' => s.InStep (States ·.1) → ∃ log, Loaded s s' result log) := by
  have visited : ∀ {base request h s t}, s.InStep (States ·.1) →
      require host.logged base request s = (.ok h, t) →
      t.InStep (States ·.1) ∧ s.registry.Grows t.registry ∧ (∃ m, t.registry.get? h = some m) ∧
        ∃ log, Loaded s t (.ok h : Except (LinkError ε) Handle) log := by
    intro base request h s t steady run
    obtain ⟨steady', asked, ask, found⟩ := required supplies.logged steady run
    obtain ⟨m, present, -⟩ := steady'.indexed.named found.find?
    exact ⟨steady', found.grows, ⟨m, present⟩, found.loaded (Host.logged_ask ask)⟩
  refine ⟨?_, ?_, ?_, ?_, ?_, ?_, ?_, ?_, ?_⟩
  · -- unknown
    intro h s absent _ ⟨m, found⟩
    rw [absent] at found
    cases found
  · -- settled
    intro h s m _ _ _ _
    exact ⟨[], .nil rfl rfl⟩
  · -- failed
    intro h s m e t found compiled _ within steady _
    obtain ⟨log, loaded⟩ := within (steady.marked h)
    refine ⟨log, loaded.around (fun _ => rfl) (fun _ => rfl) loaded.appended nofun ?_⟩
    intro e' failed
    cases failed
    rfl
  · -- done
    intro h s m dependencies t found compiled _ within steady _
    obtain ⟨log, loaded⟩ := within (steady.marked h)
    exact ⟨log, loaded.around (fun _ => rfl) (fun _ => rfl) loaded.appended
      (fun _ _ => ⟨dependencies, rfl⟩) nofun⟩
  · -- nil
    intro base s _
    exact ⟨[], .nil rfl rfl⟩
  · -- missing
    intro base request requests s cause t run steady
    obtain ⟨-, asked, ask, found⟩ := required supplies.logged steady run
    exact ⟨_, found.failure (Host.logged_ask ask)⟩
  · -- blocked
    intro base request requests s h t e u run links visit steady
    obtain ⟨steady', grows, present, log, loaded⟩ := visited steady run
    obtain ⟨-, grows'⟩ := (grows_cases supplies.logged).links links steady'
    obtain ⟨log', loaded'⟩ := visit steady' present
    have error : Loaded t u (.error e : Except (LinkError ε) (List Handle)) log' := by
      refine loaded'.around (fun _ => rfl) (fun _ => rfl) loaded'.appended nofun ?_
      intro e' failed
      cases failed
      rfl
    exact ⟨log ++ log', loaded.append error grows grows'⟩
  · -- stopped
    intro base request requests s h t u e v run links visit linksAll rest steady
    obtain ⟨steady', grows, present, log, loaded⟩ := visited steady run
    obtain ⟨steady'', grows'⟩ := (grows_cases supplies.logged).links links steady'
    obtain ⟨-, grows''⟩ := (grows_cases supplies.logged).linksAll linksAll steady''
    obtain ⟨log', loaded'⟩ := visit steady' present
    obtain ⟨log'', loaded''⟩ := rest steady''
    exact ⟨_, (loaded.append loaded' grows grows').append loaded'' (grows.trans grows') grows''⟩
  · -- cons
    intro base request requests s h t u hs v run links visit linksAll rest steady
    obtain ⟨steady', grows, present, log, loaded⟩ := visited steady run
    obtain ⟨steady'', grows'⟩ := (grows_cases supplies.logged).links links steady'
    obtain ⟨-, grows''⟩ := (grows_cases supplies.logged).linksAll linksAll steady''
    obtain ⟨log', loaded'⟩ := visit steady' present
    obtain ⟨log'', loaded''⟩ := rest steady''
    have both := (loaded.append loaded' grows grows').append loaded'' (grows.trans grows') grows''
    exact ⟨_, both.around (fun _ => rfl) (fun _ => rfl) both.appended (fun _ _ => ⟨hs, rfl⟩) nofun⟩

end Linking

end Esm
