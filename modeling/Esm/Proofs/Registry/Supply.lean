-- SUMMARY: Hosts that answer a name with one module of that name, and what linking through them keeps.
import Esm.Proofs.Registry.Advance

/-!
# Supply

A host supplies names if what an import means to it is fixed, and if it answers a name by
registering exactly one module, under that name and not linked, or by failing, which registers
nothing. Linking through such a host only adds names: a name that is registered means the same
module ever after.
-/

namespace Esm

variable {σ ε : Type}

/-- The names of what a module imports, in the order of its requests. -/
def Module.imports (names : String → String → String) (m : Module) : List String :=
  m.interface.requests.map (names m.name)

/-- The host supplies names as long as it is in one of the `States`: `names` is what an import
means, and `offers` holds of the modules that a name may get. -/
structure Host.Supplies (host : Host σ ε) (States : σ → Prop) (names : String → String → String)
    (offers : String → Module → Prop) : Prop where
  ask : ∀ {state} base specifier, States state →
    ∃ state', States state' ∧ host.ask state base specifier = (names base specifier, state')
  /-- Only names that are not registered are asked for. -/
  load : ∀ {name r} state, States state → r.find? name = none →
    (∃ cause state', States state' ∧ host.load name r state = (.error cause, r, state')) ∨
    ∃ m properties r' state', States state' ∧ m.name = name ∧ offers name m ∧
      r.Adds ⟨m, .compiled, [], properties⟩ r' ∧
      host.load name r state = (.ok r.count, r', state')

/-- A host with modules in stock. Names are taken as they are. -/
def Host.stocked (modules : List Module) : Host Unit String where
  ask _ _ specifier := (specifier, ())
  load name r _ :=
    match modules.find? fun m => m.name = name with
    | none => (.error name, r, ())
    | some m => (.ok r.count, (r.register m).1, ())

theorem Host.stocked_supplies (modules : List Module) :
    (Host.stocked modules).Supplies (fun _ => True) (fun _ specifier => specifier)
      (fun _ m => m ∈ modules) := by
  refine ⟨fun _ _ _ => ⟨(), trivial, rfl⟩, ?_⟩
  intro name r state _ absent
  unfold stocked
  dsimp only
  split
  · exact Or.inl ⟨name, (), trivial, rfl⟩
  · rename_i m found
    have named : m.name = name := by simpa using List.find?_some found
    exact Or.inr ⟨m, [], (r.register m).1, (), trivial, named, List.mem_of_find?_eq_some found,
      Registry.adds_register r m, rfl⟩

-- ---------------------------------------------------------------------------
-- Names
-- ---------------------------------------------------------------------------

namespace Registry

/-- What linking through a host that supplies names makes of a registry: it advances, and names mean
what they meant. -/
structure Grows (r r' : Registry) : Prop where
  advances : r.Advances r'
  named : ∀ {name h}, r.find? name = some h → r'.find? name = some h

theorem Grows.refl (r : Registry) : r.Grows r := ⟨.refl r, id⟩

theorem Grows.trans {r r' r'' : Registry} (first : r.Grows r') (second : r'.Grows r'') :
    r.Grows r'' :=
  ⟨first.advances.trans second.advances, fun found => second.named (first.named found)⟩

/-- A name that is not registered later was not registered before. -/
theorem Grows.absent {r r' : Registry} (grows : r.Grows r') {name : String}
    (absent : r'.find? name = none) : r.find? name = none := by
  cases found : r.find? name with
  | none => rfl
  | some h =>
    rw [grows.named found] at absent
    cases absent

theorem Adds.advances {r r' : Registry} {m : Registered} (adds : r.Adds m r')
    (compiled : m.status = .compiled) : r.Advances r' := by
  refine ⟨?_, ?_⟩
  · intro h n found
    refine ⟨n, ?_, .of_same rfl rfl rfl⟩
    rw [adds.get?, if_neg (Nat.ne_of_lt (get?_eq_some_lt found)), found]
  · intro h n absent found
    rw [adds.get?, absent] at found
    split at found
    · cases found
      exact Or.inl compiled
    · cases found

theorem Adds.grows {r r' : Registry} {m : Registered} (adds : r.Adds m r')
    (compiled : m.status = .compiled) (absent : r.find? m.module.name = none) : r.Grows r' := by
  refine ⟨adds.advances compiled, ?_⟩
  intro name h found
  have other : m.module.name ≠ name := by
    intro same
    rw [same, found] at absent
    cases absent
  rw [adds.find?, if_neg other, found]

/-- A module that is marked, and put back or linked in the end, has grown with all the others. -/
theorem Grows.around {r t : Registry} {h : Handle} {m : Registered} (found : r.get? h = some m)
    (compiled : m.status = .compiled) (within : (r.setStatus h .linking).Grows t)
    {change : Registered → Registered} (module : ∀ m, (change m).module = m.module)
    (status : ∀ m, (change m).status = .compiled ∨ (change m).status = .linked) :
    r.Grows (t.update h change) := by
  refine ⟨within.advances.around found compiled module status, ?_⟩
  intro name k named
  exact within.named named

end Registry

-- ---------------------------------------------------------------------------
-- Linking
-- ---------------------------------------------------------------------------

namespace Linking

variable {host : Host σ ε} {States : σ → Prop} {names : String → String → String}
  {offers : String → Module → Prop}

/-- The host is in one of the states, and the registry's index is in step. -/
structure InStep (States : σ → Prop) (s : Linking σ) : Prop where
  state : States s.host
  indexed : s.registry.Indexed

/-- Changing a module but for what it is takes nothing out of step. -/
theorem InStep.update {s : Linking σ} (steady : s.InStep States) (h : Handle)
    {change : Registered → Registered} (same : ∀ m, (change m).module = m.module) :
    (s.mapRegistry (·.update h change)).InStep States :=
  ⟨steady.state, steady.indexed.update h same⟩

theorem InStep.marked {s : Linking σ} (steady : s.InStep States) (h : Handle) :
    (s.marked h).InStep States :=
  steady.update h fun _ => rfl

theorem InStep.putBack {s : Linking σ} (steady : s.InStep States) (h : Handle) :
    (s.putBack h).InStep States :=
  steady.update h fun _ => rfl

theorem InStep.linkedTo {s : Linking σ} (steady : s.InStep States) (h : Handle)
    (dependencies : List Handle) : (s.linkedTo h dependencies).InStep States :=
  steady.update h fun _ => rfl

/-- How the module of a name is found, once the host has been asked what an import means and is in the
state `asked`: it is registered, or the host fails to load it, or it is the one module that the host
has just registered. -/
inductive Required (host : Host σ ε) (offers : String → Module → Prop) (asked : σ) (name : String)
    (s t : Linking σ) : Except ε Handle → Prop where
  | found {h : Handle} : s.registry.find? name = some h → t = ⟨s.registry, asked⟩ →
    Required host offers asked name s t (.ok h)
  | failed {cause : ε} : s.registry.find? name = none → t.registry = s.registry →
    host.load name s.registry asked = (.error cause, t.registry, t.host) →
    Required host offers asked name s t (.error cause)
  | added {m : Module} {properties : ImportMeta} : s.registry.find? name = none → m.name = name →
    offers name m → s.registry.Adds ⟨m, .compiled, [], properties⟩ t.registry →
    host.load name s.registry asked = (.ok s.registry.count, t.registry, t.host) →
    Required host offers asked name s t (.ok s.registry.count)

theorem required (supplies : host.Supplies States names offers) {s t : Linking σ}
    (steady : s.InStep States) {base request : String} {found : Except ε Handle}
    (run : require host base request s = (found, t)) :
    t.InStep States ∧ ∃ asked, host.ask s.host base request = (names base request, asked) ∧
      Required host offers asked (names base request) s t found := by
  obtain ⟨asked, hasked, ask⟩ := supplies.ask base request steady.state
  obtain ⟨name, state, ask', outcome⟩ := require_eq run
  cases ask.symm.trans ask'
  obtain ⟨h, named, rfl, rfl⟩ | ⟨absent, load⟩ := outcome
  · exact ⟨⟨hasked, steady.indexed⟩, asked, ask, .found named rfl⟩
  · obtain ⟨cause, state', hstate', load'⟩ |
      ⟨m, properties, r', state', hstate', named, offered, adds, load'⟩ :=
      supplies.load asked hasked absent
    · rw [load', Prod.mk.injEq, Prod.mk.injEq] at load
      obtain ⟨rfl, hregistry, hhost⟩ := load
      rw [hhost] at hstate'
      refine ⟨⟨hstate', hregistry ▸ steady.indexed⟩, asked, ask,
        .failed absent hregistry.symm ?_⟩
      rw [load', hregistry, hhost]
    · rw [load', Prod.mk.injEq, Prod.mk.injEq] at load
      obtain ⟨rfl, hregistry, hhost⟩ := load
      rw [hhost] at hstate'
      rw [hregistry] at adds
      refine ⟨⟨hstate', adds.indexed steady.indexed⟩, asked, ask,
        .added absent named offered adds ?_⟩
      rw [load', hregistry, hhost]

theorem Required.grows {asked : σ} {name : String} {s t : Linking σ} {found : Except ε Handle}
    (required : Required host offers asked name s t found) : s.registry.Grows t.registry := by
  cases required with
  | found _ same => exact same ▸ .refl s.registry
  | failed _ same _ => exact same ▸ .refl s.registry
  | added absent named _ adds _ => exact adds.grows rfl (by rw [named]; exact absent)

/-- The module found is registered under the name from then on. -/
theorem Required.find? {asked : σ} {name : String} {s t : Linking σ} {h : Handle}
    (required : Required host offers asked name s t (.ok h)) : t.registry.find? name = some h := by
  generalize hfound : (Except.ok h : Except ε Handle) = found at required
  cases required with
  | found named same =>
    cases hfound
    rw [same]
    exact named
  | failed => cases hfound
  | added _ named _ adds _ =>
    cases hfound
    rw [adds.find?, if_pos named]

/-- Linking through a host that supplies names leaves the host in a state in which it does, and the
registry grown, however it ends. -/
theorem grows_cases (supplies : host.Supplies States names offers) :
    Cases host (fun _ s _ s' => s.InStep States → s'.InStep States ∧ s.registry.Grows s'.registry)
      (fun _ _ s _ s' => s.InStep States → s'.InStep States ∧ s.registry.Grows s'.registry) := by
  refine ⟨?_, ?_, ?_, ?_, ?_, ?_, ?_, ?_, ?_⟩
  · -- unknown
    intro h s absent steady
    exact ⟨steady, .refl _⟩
  · -- settled
    intro h s m found past steady
    exact ⟨steady, .refl _⟩
  · -- failed
    intro h s m e t found compiled _ within steady
    obtain ⟨steady', grows⟩ := within (steady.marked h)
    exact ⟨steady'.putBack h, grows.around found compiled (fun _ => rfl) fun _ => Or.inl rfl⟩
  · -- done
    intro h s m dependencies t found compiled _ within steady
    obtain ⟨steady', grows⟩ := within (steady.marked h)
    exact ⟨steady'.linkedTo h dependencies,
      grows.around found compiled (fun _ => rfl) fun _ => Or.inr rfl⟩
  · -- nil
    intro base s steady
    exact ⟨steady, .refl _⟩
  · -- missing
    intro base request requests s cause t run steady
    obtain ⟨steady', _, -, found⟩ := required supplies steady run
    exact ⟨steady', found.grows⟩
  · -- blocked
    intro base request requests s h t e u run _ visit steady
    obtain ⟨steady', _, -, found⟩ := required supplies steady run
    obtain ⟨steady'', grows⟩ := visit steady'
    exact ⟨steady'', found.grows.trans grows⟩
  · -- stopped
    intro base request requests s h t u e v run _ visit _ rest steady
    obtain ⟨steady', _, -, found⟩ := required supplies steady run
    obtain ⟨steady'', grows⟩ := visit steady'
    obtain ⟨last, grows'⟩ := rest steady''
    exact ⟨last, (found.grows.trans grows).trans grows'⟩
  · -- cons
    intro base request requests s h t u hs v run _ visit _ rest steady
    obtain ⟨steady', _, -, found⟩ := required supplies steady run
    obtain ⟨steady'', grows⟩ := visit steady'
    obtain ⟨last, grows'⟩ := rest steady''
    exact ⟨last, (found.grows.trans grows).trans grows'⟩

end Linking

end Esm
