-- SUMMARY: Each request of a linked module is bound to a module of the name that it means, in order.
import Mathlib.Data.List.Forall2
import Esm.Proofs.Registry.Dependencies
import Esm.Proofs.Registry.Handles

/-!
# Bindings

The dependencies of a linked module stand in the order of its requests, and each is a registered
module that has the name the request means. This needs of hosts no more than that a request always
means the same to them and that a module they answer with has the name it was asked for. Each
dependency was found by name or loaded while those before it were being linked; whatever that
registered, and whatever is registered under the name later, the module that was bound keeps its
name.
-/

namespace Esm

variable {σ ε : Type}

/-- What an import means to the host is fixed, and a module that it answers with is registered and
has the name that was asked for. Nothing is said of what else it registers, or of what it does when
it fails. -/
structure Host.Answers (host : Host σ ε) (names : String → String → String) : Prop where
  normalize : ∀ state base specifier, host.normalize state base specifier = names base specifier
  load : ∀ {name r state h r' state'}, host.load name r state = (.ok h, r', state') →
    ∃ m, r'.get? h = some m ∧ m.module.name = name

/-- A module in stock is found under its own name. -/
theorem Host.stocked_answers (modules : List Module) :
    (Host.stocked modules).Answers fun _ specifier => specifier := by
  refine ⟨fun _ _ _ => rfl, ?_⟩
  intro name r state h r' state' load
  unfold stocked at load
  dsimp only at load
  split at load
  · cases load
  · rename_i m found
    cases load
    refine ⟨_, (Registry.get?_register r m r.count).trans (if_pos rfl), ?_⟩
    simpa using List.find?_some found

namespace Registry

variable {names : String → String → String} {r r' r'' : Registry}

/-- One registry comes from another by calls, as in `Evolves`, through hosts to which an import
means what `names` says. -/
inductive EvolvesBy (names : String → String → String) : Registry → Registry → Prop where
  | refl (r : Registry) : EvolvesBy names r r
  | entry {r r' r'' : Registry} : EvolvesBy names r r' → Entry r' r'' → EvolvesBy names r r''
  | mark {r r' : Registry} {h : Handle} :
    EvolvesBy names r r' → EvolvesBy names r (r'.setStatus h .linking)
  | link {r r' : Registry} {σ ε : Type} {host : Host σ ε} {depth : Nat} {h : Handle} {state : σ}
    {result : Except (LinkError ε) Unit} {s : Linking σ} :
    host.Answers names → (∀ name r state, EvolvesBy names r (host.load name r state).2.1) →
    EvolvesBy names r r' → Linking.link host depth h ⟨r', state⟩ = some (result, s) →
    EvolvesBy names r s.registry
  | evaluate {r r' : Registry} {σ ε : Type} {host : Host σ ε} {depth : Nat} {h : Handle}
    {state : σ} {result : Except (LinkError ε) Unit} {s : Linking σ} :
    host.Answers names → (∀ name r state, EvolvesBy names r (host.load name r state).2.1) →
    EvolvesBy names r r' → Linking.evaluate host depth h ⟨r', state⟩ = some (result, s) →
    EvolvesBy names r s.registry

theorem EvolvesBy.evolves (by_names : EvolvesBy names r r') : Evolves r r' := by
  induction by_names with
  | refl r => exact .refl r
  | entry _ entry ih => exact .entry ih entry
  | mark _ ih => exact .mark ih
  | link _ _ _ run loads ih => exact .link loads ih run
  | evaluate _ _ _ run loads ih => exact .evaluate loads ih run

theorem Evolves.keeps_modules (evolves : Evolves r r') : r.Keeps r' := by
  obtain ⟨log, issues⟩ := evolves.issues
  exact issues.keeps

-- ---------------------------------------------------------------------------
-- Bound requests
-- ---------------------------------------------------------------------------

/-- A handle is that of a module with the name. -/
def Holds (r : Registry) (d : Handle) (name : String) : Prop :=
  ∃ n, r.get? d = some n ∧ n.module.name = name

theorem Holds.keeps {d : Handle} {name : String} (holds : r.Holds d name) (keeps : r.Keeps r') :
    r'.Holds d name := by
  obtain ⟨n, found, named⟩ := holds
  obtain ⟨n', found', same⟩ := keeps found
  exact ⟨n', found', by rw [same, named]⟩

/-- Requests that the module `base` makes are bound to modules, one for one. -/
def BindsAll (names : String → String → String) (r : Registry) (base : String)
    (dependencies : List Handle) (requests : List String) : Prop :=
  List.Forall₂ (fun d request => r.Holds d (names base request)) dependencies requests

theorem BindsAll.keeps {base : String} {dependencies : List Handle} {requests : List String}
    (binds : BindsAll names r base dependencies requests) (keeps : r.Keeps r') :
    BindsAll names r' base dependencies requests :=
  binds.imp fun _ _ holds => holds.keeps keeps

/-- Every module has its requests bound, or has no dependencies and is not linked; and the index is in
step. -/
structure Wired (names : String → String → String) (r : Registry) : Prop where
  indexed : r.Indexed
  bound : ∀ {h m}, r.get? h = some m →
    (m.status ≠ .linked ∧ m.dependencies = []) ∨
      BindsAll names r m.module.name m.dependencies m.module.interface.requests

theorem Wired.empty : Wired names .empty := ⟨.empty, nofun⟩

theorem Wired.register (wired : Wired names r) (m : Module) : Wired names (r.register m).1 := by
  refine ⟨wired.indexed.register m, fun {h n} found => ?_⟩
  rw [get?_register] at found
  split at found
  · cases found
    exact Or.inl ⟨nofun, rfl⟩
  · exact (wired.bound found).imp_right fun binds => binds.keeps (keeps_register r m)

/-- A module may be given another status, if that is not linked, and other properties. -/
theorem Wired.update (wired : Wired names r) (h : Handle) {change : Registered → Registered}
    (module : ∀ m, (change m).module = m.module)
    (dependencies : ∀ m, (change m).dependencies = m.dependencies)
    (status : ∀ m, (change m).status = .linked → m.status = .linked) :
    Wired names (r.update h change) := by
  have keeps := keeps_update r h module
  refine ⟨wired.indexed.update h module, fun {k n} found => ?_⟩
  rw [get?_update] at found
  split at found
  · obtain ⟨m, found', rfl⟩ := Option.map_eq_some_iff.1 found
    rw [module, dependencies]
    refine (wired.bound found').imp ?_ fun binds => binds.keeps keeps
    rintro ⟨unlinked, none⟩
    exact ⟨fun linked => unlinked (status m linked), none⟩
  · exact (wired.bound found).imp_right fun binds => binds.keeps keeps

/-- A module is linked to the modules that its requests are bound to. -/
theorem Wired.linkedTo (wired : Wired names r) {h : Handle} {m : Registered}
    {dependencies : List Handle} (found : r.get? h = some m)
    (binds : BindsAll names r m.module.name dependencies m.module.interface.requests) :
    Wired names (r.update h fun m =>
      { m with dependencies := dependencies, status := .linked }) := by
  have keeps : r.Keeps (r.update h fun m =>
      { m with dependencies := dependencies, status := .linked }) :=
    keeps_update r h fun _ => rfl
  refine ⟨wired.indexed.update h fun _ => rfl, fun {k n} after => ?_⟩
  obtain ⟨-, rfl⟩ | ⟨-, before⟩ := get?_update_eq_some found after
  · exact Or.inr (binds.keeps keeps)
  · exact (wired.bound before).imp_right fun binds => binds.keeps keeps

theorem Wired.setStatus (wired : Wired names r) (h : Handle) {status : Status}
    (other : status ≠ .linked) : Wired names (r.setStatus h status) :=
  wired.update h (fun _ => rfl) (fun _ => rfl) fun _ linked => absurd linked other

theorem Wired.entry (wired : Wired names r) (entry : Entry r r') : Wired names r' := by
  obtain ⟨m, -, rfl⟩ | ⟨h, key, value, rfl⟩ := entry.cases
  · exact wired.register m
  · exact wired.update h (fun _ => rfl) (fun _ => rfl) fun _ => id

theorem Wired.markEvaluated (wired : Wired names r) (pending : List Handle) :
    Wired names (r.markEvaluated pending) := by
  fun_induction Registry.markEvaluated r pending with
  | case1 r => exact wired
  | case2 r h pending absent ih => exact ih wired
  | case3 r h pending m found evaluated ih => exact ih wired
  | case4 r h pending m found fresh ih => exact ih (wired.setStatus h (by decide))

end Registry

-- ---------------------------------------------------------------------------
-- Linking
-- ---------------------------------------------------------------------------

namespace Linking

open Registry

variable {host : Host σ ε} {names : String → String → String}

/-- Linking keeps modules if loading does. -/
theorem kept_keeps (loads : ∀ name (r : Registry) state, r.Keeps (host.load name r state).2.1)
    (r : Registry) : Kept host r.Keeps := by
  refine ⟨?_, ?_, ?_⟩
  · intro name r' state _ keeps
    exact keeps.trans (loads name r' state)
  · intro r' h status keeps
    exact keeps.trans (keeps_update r' h fun _ => rfl)
  · intro r' h dependencies keeps
    exact keeps.trans (keeps_update r' h fun _ => rfl)

/-- The module that a request leads to has the name that the request means. -/
theorem require_holds (answers : host.Answers names) {base request : String} {s t : Linking σ}
    {h : Handle} (indexed : s.registry.Indexed) (run : require host base request s = (.ok h, t)) :
    t.registry.Holds h (names base request) := by
  obtain ⟨name, state, ask, outcome⟩ := require_eq run
  have meant : name = names base request := by
    rw [← answers.normalize s.host, Host.normalize, ask]
  rw [← meant]
  obtain ⟨k, named, same, rfl⟩ | ⟨-, load⟩ := outcome
  · cases same
    exact indexed.named named
  · exact answers.load load

/-- Linking keeps requests bound, however it ends, if loading does. Requests that are linked are
bound, in order. -/
theorem wired_cases (answers : host.Answers names)
    (loads : ∀ name (r : Registry) state, r.Keeps (host.load name r state).2.1)
    (wires : ∀ name r state, Wired names r → Wired names (host.load name r state).2.1) :
    Cases host
      (fun _ s _ s' => Wired names s.registry → Wired names s'.registry)
      (fun base requests s result s' => Wired names s.registry → Wired names s'.registry ∧
        ∀ hs, result = .ok hs → BindsAll names s'.registry base hs requests) := by
  have required : ∀ {base request s t found}, require host base request s = (found, t) →
      Wired names s.registry → Wired names t.registry := by
    intro base request s t found run wired
    obtain ⟨name, state, -, ⟨_, -, -, rfl⟩ | ⟨-, load⟩⟩ := require_eq run
    · exact wired
    · have := wires name s.registry state wired
      rw [load] at this
      exact this
  refine ⟨?_, ?_, ?_, ?_, ?_, ?_, ?_, ?_, ?_⟩
  · -- unknown
    exact fun _ wired => wired
  · -- settled
    exact fun _ _ wired => wired
  · -- failed
    intro h s m e t found compiled run within wired
    obtain ⟨wired', -⟩ := within (wired.setStatus h nofun)
    exact wired'.setStatus h nofun
  · -- done
    intro h s m dependencies t found compiled run within wired
    obtain ⟨wired', answer⟩ := within (wired.setStatus h nofun)
    -- the module is still what it was when its requests were gone through
    have marked : s.registry.Keeps (s.marked h).registry := keeps_update _ _ fun _ => rfl
    have keeps : s.registry.Keeps t.registry :=
      marked.trans ((kept_keeps loads _).linksAll run (.refl _))
    obtain ⟨m', found', same⟩ := keeps found
    have binds := answer dependencies rfl
    rw [← same] at binds
    exact wired'.linkedTo found' binds
  · -- nil
    intro base s wired
    refine ⟨wired, ?_⟩
    rintro hs ⟨⟩
    exact List.Forall₂.nil
  · -- missing
    exact fun run wired => ⟨required run wired, nofun⟩
  · -- blocked
    exact fun run _ visit wired => ⟨visit (required run wired), nofun⟩
  · -- stopped
    intro base request requests s h t u e v run _ visit _ rest wired
    obtain ⟨wired', -⟩ := rest (visit (required run wired))
    exact ⟨wired', nofun⟩
  · -- cons
    intro base request requests s h t u hs v run visited visit stopped rest wired
    obtain ⟨wired', answer⟩ := rest (visit (required run wired))
    refine ⟨wired', ?_⟩
    rintro hs' ⟨⟩
    -- what the first request led to keeps its name while it and the others are linked
    have keeps : t.registry.Keeps v.registry :=
      ((kept_keeps loads _).link visited (.refl _)).trans
        ((kept_keeps loads _).linksAll stopped (.refl _))
    exact List.Forall₂.cons ((require_holds answers wired.indexed run).keeps keeps) (answer hs rfl)

end Linking

-- ---------------------------------------------------------------------------
-- Reached registries
-- ---------------------------------------------------------------------------

namespace Registry

variable {names : String → String → String} {r r' : Registry}

theorem Wired.evolvesBy (by_names : EvolvesBy names r r') (wired : Wired names r) :
    Wired names r' := by
  induction by_names with
  | refl => exact wired
  | entry _ entry ih => exact (ih wired).entry entry
  | mark _ ih => exact (ih wired).setStatus _ nofun
  | link answers loads _ run wires ih =>
    have keeps := fun name r state => (loads name r state).evolves.keeps_modules
    exact (Linking.wired_cases answers keeps wires).links ⟨_, run⟩ (ih wired)
  | evaluate answers loads _ run wires ih =>
    have keeps := fun name r state => (loads name r state).evolves.keeps_modules
    obtain ⟨t, link, rfl⟩ := Linking.evaluate_eq run
    have linked := (Linking.wired_cases answers keeps wires).links ⟨_, link⟩ (ih wired)
    split
    · exact linked.markEvaluated _
    · exact linked

/-- However a registry was reached through hosts to which imports mean the same, a linked module has
a dependency for each request, and each is a registered module of the name that the request at its
place means. -/
theorem EvolvesBy.bindings (reached : EvolvesBy names .empty r) {h : Handle} {m : Registered}
    (found : r.get? h = some m) (linked : m.status = .linked) :
    m.dependencies.length = m.module.interface.requests.length ∧
      ∀ (i : Nat) request, m.module.interface.requests[i]? = some request →
        ∃ d n, m.dependencies[i]? = some d ∧ r.get? d = some n ∧
          n.module.name = names m.module.name request := by
  have wired : Wired names r := Wired.empty.evolvesBy reached
  have binds : BindsAll names r m.module.name m.dependencies m.module.interface.requests := by
    obtain ⟨unlinked, -⟩ | binds := wired.bound found
    · exact absurd linked unlinked
    · exact binds
  obtain ⟨length, each⟩ := List.forall₂_iff_get.1 binds
  refine ⟨length, ?_⟩
  intro i request requested
  obtain ⟨inside, rfl⟩ := List.getElem?_eq_some_iff.1 requested
  have inside' : i < m.dependencies.length := by omega
  obtain ⟨n, found', named⟩ := each i inside' inside
  exact ⟨m.dependencies[i], n, List.getElem?_eq_getElem inside', found', named⟩

/-- The module `a` requests `b` twice and, in between, itself; `b` requests `a`. Linking `a` loads
`b`, and then another module is registered as `b`. -/
theorem EvolvesBy.bindings_again :
    let names : String → String → String := fun _ specifier => specifier
    let a : Module := ⟨"a", ⟨["b", "a", "b"], [], []⟩, ⟨[], []⟩⟩
    let b : Module := ⟨"b", ⟨["a"], [], []⟩, ⟨[], []⟩⟩
    let r : Registry :=
      ⟨[⟨a, .linked, [1, 0, 1], []⟩, ⟨b, .linked, [0], []⟩, ⟨b, .compiled, [], []⟩],
        [("a", 0), ("b", 2)]⟩
    EvolvesBy names .empty r ∧ r.find? "b" = some 2 ∧
      ∃ d n, [1, 0, 1][2]? = some d ∧ r.get? d = some n ∧ n.module.name = names "a" "b" := by
  intro names a b r
  have read : ∀ (into : Registry) {m : Module}, m.Encodable → m.code.Indexed →
      Entry into (into.register m).1 :=
    fun into _ size indexed => .read (read_written size indexed .native into)
  have loads : ∀ name r state, EvolvesBy names r ((Host.stocked [b]).load name r state).2.1 := by
    intro name r state
    unfold Host.stocked
    dsimp only
    split
    · exact .refl r
    · rename_i m found
      obtain rfl := List.mem_singleton.1 (List.mem_of_find?_eq_some found)
      exact .entry (.refl r) (read r (by decide) (by decide))
  let before : Registry := ⟨[⟨a, .compiled, [], []⟩], [("a", 0)]⟩
  let linked : Registry :=
    ⟨[⟨a, .linked, [1, 0, 1], []⟩, ⟨b, .linked, [0], []⟩], [("a", 0), ("b", 1)]⟩
  have link : Linking.link (Host.stocked [b]) 2 0 ⟨before, ()⟩ = some (.ok (), ⟨linked, ()⟩) := rfl
  have reached : EvolvesBy names .empty r :=
    .entry (.link (Host.stocked_answers [b]) loads
      (.entry (.refl _) (read .empty (m := a) (by decide) (by decide))) link)
      (read linked (m := b) (by decide) (by decide))
  have found : r.get? 0 = some ⟨a, .linked, [1, 0, 1], []⟩ := rfl
  obtain ⟨-, each⟩ := reached.bindings found rfl
  exact ⟨reached, rfl, each 2 "b" rfl⟩

end Registry

end Esm
