-- SUMMARY: The modules that a module needs, and that linking it registers those and no others.
import Esm.Proofs.Registry.Unfinished

/-!
# Needs

If each name can get one module only, then what a module needs is settled before anything is loaded:
the modules that it leads to by imports. Linking it registers none but these, each once. A registry
in which all of them are linked looks the same whatever way led to it, up to the order of
registration.
-/

namespace Esm

/-- The modules that `main` needs: itself, and what the imports of a needed module may get. The name
of `main` is taken. -/
inductive Needed (names : String → String → String) (offers : String → Module → Prop)
    (main : Module) : Module → Prop where
  | main : Needed names offers main main
  | imported {m m' : Module} {name : String} : Needed names offers main m →
    name ∈ m.imports names → name ≠ main.name → offers name m' → Needed names offers main m'

namespace Registry

/-- The registry holds `main`, and otherwise only what it needs, under distinct names. -/
structure Known (names : String → String → String) (offers : String → Module → Prop) (root : Handle)
    (main : Module) (r : Registry) : Prop where
  present : ∃ m, r.get? root = some m ∧ m.module = main
  needed : ∀ {h m}, r.get? h = some m → Needed names offers main m.module
  unique : ∀ {h m}, r.get? h = some m → r.find? m.module.name = some h
  indexed : r.Indexed

/-- What can be seen of a name, handles apart: its module, its status, and the names of its
dependencies. -/
def view (r : Registry) (name : String) : Option (Module × Status × List (Option String)) :=
  (r.find? name).bind fun h => (r.get? h).map fun m =>
    (m.module, m.status, m.dependencies.map fun d => (r.get? d).map (·.module.name))

/-- Every module is linked to the modules that its imports mean. -/
def AllLinked (names : String → String → String) (r : Registry) : Prop :=
  ∀ ⦃h m⦄, r.get? h = some m → m.status = .linked ∧
    List.Forall₂ (fun name d => r.find? name = some d) (m.module.imports names) m.dependencies

variable {names : String → String → String} {offers : String → Module → Prop} {root : Handle}
  {main : Module} {r r' : Registry}

-- ---------------------------------------------------------------------------
-- Known modules
-- ---------------------------------------------------------------------------

/-- The one module of a registry that was empty. -/
theorem get?_register_empty {m : Module} {h : Handle} {n : Registered}
    (found : (empty.register m).1.get? h = some n) : h = 0 ∧ n = ⟨m, .compiled, [], []⟩ := by
  rw [get?_register] at found
  split at found
  · rename_i first
    cases found
    exact ⟨first, rfl⟩
  · cases found

theorem Known.register (m : Module) : Known names offers 0 m (empty.register m).1 := by
  refine ⟨⟨_, rfl, rfl⟩, ?_, ?_, Indexed.empty.register m⟩
  · intro h n found
    obtain ⟨-, rfl⟩ := get?_register_empty found
    exact .main
  · intro h n found
    obtain ⟨rfl, rfl⟩ := get?_register_empty found
    rw [find?_register, if_pos rfl]
    rfl

theorem Known.update (known : Known names offers root main r) (h : Handle)
    {change : Registered → Registered} (module : ∀ m, (change m).module = m.module) :
    Known names offers root main (r.update h change) := by
  have origin : ∀ {k n}, (r.update h change).get? k = some n →
      ∃ m, r.get? k = some m ∧ n.module = m.module := by
    intro k n found
    rw [get?_update] at found
    split at found
    · obtain ⟨m, hm, rfl⟩ := Option.map_eq_some_iff.1 found
      exact ⟨m, hm, module m⟩
    · exact ⟨n, found, rfl⟩
  refine ⟨?_, ?_, ?_, known.indexed.update h module⟩
  · obtain ⟨m, found, same⟩ := known.present
    rw [get?_update, found]
    split
    · exact ⟨change m, rfl, (module m).trans same⟩
    · exact ⟨m, rfl, same⟩
  · intro k n found
    obtain ⟨m, hm, same⟩ := origin found
    exact same ▸ known.needed hm
  · intro k n found
    obtain ⟨m, hm, same⟩ := origin found
    rw [find?_update, same]
    exact known.unique hm

/-- The name of `main` means `main`. -/
theorem Known.find?_main (known : Known names offers root main r) :
    r.find? main.name = some root := by
  obtain ⟨m, found, rfl⟩ := known.present
  exact known.unique found

/-- A needed module is registered. -/
theorem Known.add (known : Known names offers root main r) {m : Registered} (adds : r.Adds m r')
    (absent : r.find? m.module.name = none) (needed : Needed names offers main m.module) :
    Known names offers root main r' := by
  have old : ∀ {k n}, r.get? k = some n → r'.get? k = some n := by
    intro k n found
    rw [adds.get?, if_neg (Nat.ne_of_lt (get?_eq_some_lt found)), found]
  have origin : ∀ {k n}, r'.get? k = some n → (k = r.count ∧ n = m) ∨ r.get? k = some n := by
    intro k n found
    rw [adds.get?] at found
    split at found
    · rename_i last
      cases found
      exact Or.inl ⟨last, rfl⟩
    · exact Or.inr found
  refine ⟨?_, ?_, ?_, adds.indexed known.indexed⟩
  · obtain ⟨n, found, same⟩ := known.present
    exact ⟨n, old found, same⟩
  · intro k n found
    obtain ⟨-, rfl⟩ | found := origin found
    · exact needed
    · exact known.needed found
  · intro k n found
    rw [adds.find?]
    obtain ⟨rfl, rfl⟩ | found := origin found
    · exact if_pos rfl
    · have other : m.module.name ≠ n.module.name := by
        intro same
        rw [same, known.unique found] at absent
        cases absent
      rw [if_neg other, known.unique found]

/-- Every name is registered once. -/
theorem Known.nodup (known : Known names offers root main r) :
    (r.modules.map (·.module.name)).Nodup := by
  apply List.pairwise_iff_getElem.2
  intro i j hi hj less same
  rw [List.length_map] at hi hj
  rw [List.getElem_map, List.getElem_map] at same
  have first : r.find? r.modules[i].module.name = some i :=
    known.unique (List.getElem?_eq_getElem hi)
  have second : r.find? r.modules[j].module.name = some j :=
    known.unique (List.getElem?_eq_getElem hj)
  rw [same, second] at first
  cases first
  exact Nat.lt_irrefl _ less

-- ---------------------------------------------------------------------------
-- All that is needed
-- ---------------------------------------------------------------------------

/-- What a name may get, if it can get anything, is one module of that name. -/
structure Settles (offers : String → Module → Prop) : Prop where
  named : ∀ {name m}, offers name m → m.name = name
  single : ∀ {name m m'}, offers name m → offers name m' → m = m'

/-- Where all is linked, everything needed is registered. -/
theorem AllLinked.registered (linked : r.AllLinked names) (known : Known names offers root main r)
    (settles : Settles offers) {m : Module} (needed : Needed names offers main m) :
    ∃ h n, r.get? h = some n ∧ n.module = m := by
  induction needed with
  | main =>
    obtain ⟨n, found, same⟩ := known.present
    exact ⟨root, n, found, same⟩
  | @imported m m' name _ mem other offered ih =>
    obtain ⟨h, n, found, rfl⟩ := ih
    obtain ⟨d, means⟩ := exists_of_forall₂ (linked found).2 mem
    obtain ⟨n', found', named⟩ := known.indexed.named means
    refine ⟨d, n', found', ?_⟩
    have needed := known.needed found'
    generalize n'.module = m'' at named needed
    cases needed with
    | main => exact absurd named.symm other
    | imported _ _ _ offered' =>
      have same := (settles.named offered').symm.trans named
      exact settles.single (same ▸ offered') offered

/-- Where all is linked, every import of a needed module was to be had. -/
theorem AllLinked.provided (linked : r.AllLinked names) (known : Known names offers root main r)
    (settles : Settles offers) {m : Module} (needed : Needed names offers main m) {name : String}
    (mem : name ∈ m.imports names) (other : name ≠ main.name) : ∃ m', offers name m' := by
  obtain ⟨h, n, found, rfl⟩ := linked.registered known settles needed
  obtain ⟨d, means⟩ := exists_of_forall₂ (linked found).2 mem
  obtain ⟨n', found', rfl⟩ := known.indexed.named means
  have needed' := known.needed found'
  generalize n'.module = m' at other needed'
  cases needed' with
  | main => exact absurd rfl other
  | imported _ _ _ offered => exact ⟨m', (settles.named offered) ▸ offered⟩

/-- What is seen of a needed module, where all is linked. -/
theorem AllLinked.view (linked : r.AllLinked names) (indexed : r.Indexed) {h : Handle}
    {m : Registered}
    (found : r.get? h = some m) (named : r.find? m.module.name = some h) :
    r.view m.module.name = some (m.module, .linked, (m.module.imports names).map some) := by
  obtain ⟨status, means⟩ := linked found
  have dependencies : List.Forall₂ Eq ((m.module.imports names).map some)
      (m.dependencies.map fun d => (r.get? d).map (·.module.name)) := by
    apply List.forall₂_map_left_iff.2
    apply List.forall₂_map_right_iff.2
    refine means.imp ?_
    intro name d means
    obtain ⟨n, found', named⟩ := indexed.named means
    rw [found', ← named]
    rfl
  rw [List.forall₂_eq_eq_eq] at dependencies
  unfold Registry.view
  rw [named, Option.bind_some, found, Option.map_some, status, dependencies]

/-- Two registries that hold what is needed, all of it linked, look the same. -/
theorem AllLinked.view_eq {root' : Handle} (linked : r.AllLinked names)
    (known : Known names offers root main r) (linked' : r'.AllLinked names)
    (known' : Known names offers root' main r') (settles : Settles offers) (name : String) :
    r.view name = r'.view name := by
  have absent : ∀ {r : Registry}, r.find? name = none → r.view name = none := by
    intro r absent
    unfold Registry.view
    rw [absent]
    rfl
  cases found : r.find? name with
  | none =>
    cases found' : r'.find? name with
    | none => rw [absent found, absent found']
    | some h' =>
      obtain ⟨m', hm', rfl⟩ := known'.indexed.named found'
      obtain ⟨h, m, hm, same⟩ := linked.registered known settles (known'.needed hm')
      rw [← same, known.unique hm] at found
      cases found
  | some h =>
    obtain ⟨m, hm, rfl⟩ := known.indexed.named found
    obtain ⟨h', m', hm', same⟩ := linked'.registered known' settles (known.needed hm)
    rw [linked.view known.indexed hm found, ← same,
      linked'.view known'.indexed hm' (known'.unique hm')]

end Registry

/-- A host that is ready loads every name that can get a module. -/
def Host.Ready {σ ε : Type} (host : Host σ ε) (States : σ → Prop)
    (offers : String → Module → Prop) : Prop :=
  ∀ {name r state m}, States state → offers name m → ∃ h, (host.load name r state).1 = .ok h

-- ---------------------------------------------------------------------------
-- Linking
-- ---------------------------------------------------------------------------

namespace Linking

open Registry

variable {σ ε : Type} {host : Host σ ε} {States : σ → Prop} {names : String → String → String}
  {offers : String → Module → Prop} {root : Handle} {main : Module}

/-- All of these names are imported by modules that are needed. -/
def Imported (names : String → String → String) (offers : String → Module → Prop) (main : Module)
    (todo : List String) : Prop :=
  ∀ name ∈ todo, ∃ m, Needed names offers main m ∧ name ∈ m.imports names

theorem Required.known {asked : σ} {name : String} {s t : Linking σ} {found : Except ε Handle}
    (required : Required host offers asked name s t found)
    (known : Known names offers root main s.registry)
    (imported : ∃ m, Needed names offers main m ∧ name ∈ m.imports names) :
    Known names offers root main t.registry := by
  cases required with
  | found _ same => exact same ▸ known
  | failed _ same _ => rwa [same]
  | @added m properties absent named offered adds _ =>
    obtain ⟨base, needed, mem⟩ := imported
    have other : name ≠ main.name := by
      intro same
      rw [same, known.find?_main] at absent
      cases absent
    exact known.add adds (by rw [named]; exact absent) (.imported needed mem other offered)

/-- Linking registers what is needed, however it ends. -/
theorem known_cases (supplies : host.Supplies States names offers) (root : Handle) (main : Module) :
    Cases host
      (fun _ s _ s' => States s.host → Known names offers root main s.registry →
        Known names offers root main s'.registry)
      (fun base requests s _ s' => States s.host → Known names offers root main s.registry →
        Imported names offers main (requests.map (names base)) →
        Known names offers root main s'.registry) := by
  refine ⟨?_, ?_, ?_, ?_, ?_, ?_, ?_, ?_, ?_⟩
  · -- unknown
    intro h s _ _ known
    exact known
  · -- settled
    intro h s m _ _ _ known
    exact known
  · -- failed
    intro h s m e t found _ _ within state known
    have known' : Known names offers root main (s.marked h).registry := known.update h fun _ => rfl
    exact (within state known' (fun name mem => ⟨_, known.needed found, mem⟩)).update h fun _ => rfl
  · -- done
    intro h s m dependencies t found _ _ within state known
    have known' : Known names offers root main (s.marked h).registry := known.update h fun _ => rfl
    exact (within state known' (fun name mem => ⟨_, known.needed found, mem⟩)).update h fun _ => rfl
  · -- nil
    intro base s _ known _
    exact known
  · -- missing
    intro base request requests s cause t run state known imported
    obtain ⟨-, _, -, found⟩ := required supplies ⟨state, known.indexed⟩ run
    exact found.known known (imported _ List.mem_cons_self)
  · -- blocked
    intro base request requests s h t e u run _ visit state known imported
    obtain ⟨steady, _, -, found⟩ := required supplies ⟨state, known.indexed⟩ run
    exact visit steady.state (found.known known (imported _ List.mem_cons_self))
  · -- stopped
    intro base request requests s h t u e v run links visit _ rest state known imported
    obtain ⟨steady, _, -, found⟩ := required supplies ⟨state, known.indexed⟩ run
    obtain ⟨steady', -⟩ := (grows_cases supplies).links links steady
    exact rest steady'.state (visit steady.state (found.known known (imported _ List.mem_cons_self)))
      fun name mem => imported name (List.mem_cons_of_mem _ mem)
  · -- cons
    intro base request requests s h t u hs v run links visit _ rest state known imported
    obtain ⟨steady, _, -, found⟩ := required supplies ⟨state, known.indexed⟩ run
    obtain ⟨steady', -⟩ := (grows_cases supplies).links links steady
    exact rest steady'.state (visit steady.state (found.known known (imported _ List.mem_cons_self)))
      fun name mem => imported name (List.mem_cons_of_mem _ mem)

/-- Linking does not fail if the host is ready and everything that is imported can be had. -/
theorem ready_cases (supplies : host.Supplies States names offers)
    (ready : host.Ready States offers)
    (root : Handle) (provided : ∀ {m name}, Needed names offers main m → name ∈ m.imports names →
      name ≠ main.name → ∃ m', offers name m') :
    Cases host
      (fun h s result _ => States s.host → Known names offers root main s.registry →
        (∃ m, s.registry.get? h = some m) → ∃ a, result = .ok a)
      (fun base requests s result _ => States s.host → Known names offers root main s.registry →
        Imported names offers main (requests.map (names base)) → ∃ hs, result = .ok hs) := by
  refine ⟨?_, ?_, ?_, ?_, ?_, ?_, ?_, ?_, ?_⟩
  · -- unknown
    intro h s absent _ _ ⟨m, found⟩
    rw [absent] at found
    cases found
  · -- settled
    intro h s m _ _ _ _ _
    exact ⟨(), rfl⟩
  · -- failed
    intro h s m e t found _ _ within state known _
    have known' : Known names offers root main (s.marked h).registry := known.update h fun _ => rfl
    obtain ⟨hs, failed⟩ := within state known' fun name mem => ⟨_, known.needed found, mem⟩
    cases failed
  · -- done
    intro h s m dependencies t _ _ _ _ _ _ _
    exact ⟨(), rfl⟩
  · -- nil
    intro base s _ _ _
    exact ⟨[], rfl⟩
  · -- missing
    intro base request requests s cause t run state known imported
    obtain ⟨-, asked, ask, found⟩ := required supplies ⟨state, known.indexed⟩ run
    obtain ⟨asked', hasked, ask'⟩ := supplies.ask base request state
    cases ask.symm.trans ask'
    obtain ⟨m, needed, mem⟩ := imported _ List.mem_cons_self
    generalize hfound : (Except.error cause : Except ε Handle) = answer at found
    cases found with
    | found => cases hfound
    | added => cases hfound
    | failed absent _ load =>
      have other : names base request ≠ main.name := by
        intro same
        rw [same, known.find?_main] at absent
        cases absent
      obtain ⟨m', offered⟩ := provided needed mem other
      obtain ⟨h, loaded⟩ := ready (r := s.registry) hasked offered
      rw [load] at loaded
      cases loaded
  · -- blocked
    intro base request requests s h t e u run _ visit state known imported
    obtain ⟨steady, _, -, found⟩ := required supplies ⟨state, known.indexed⟩ run
    obtain ⟨m, hm, -⟩ := steady.indexed.named found.find?
    obtain ⟨a, failed⟩ :=
      visit steady.state (found.known known (imported _ List.mem_cons_self)) ⟨m, hm⟩
    cases failed
  · -- stopped
    intro base request requests s h t u e v run links _ _ rest state known imported
    obtain ⟨steady, _, -, found⟩ := required supplies ⟨state, known.indexed⟩ run
    obtain ⟨steady', -⟩ := (grows_cases supplies).links links steady
    have known' := found.known known (imported _ List.mem_cons_self)
    obtain ⟨hs, failed⟩ := rest steady'.state ((known_cases supplies root main).links links steady.state known')
      fun name mem => imported name (List.mem_cons_of_mem _ mem)
    cases failed
  · -- cons
    intro base request requests s h t u hs v _ _ _ _ _ _ _ _
    exact ⟨h :: hs, rfl⟩

end Linking

end Esm
