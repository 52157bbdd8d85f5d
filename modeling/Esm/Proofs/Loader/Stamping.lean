-- SUMMARY: The properties of a module may be changed before or after linking: the outcome is the same.
import Esm.Proofs.Loader.Loading
import Esm.Proofs.Registry.Dependencies
import Esm.Proofs.Registry.Simulation
import Esm.Proofs.Registry.Supply

/-!
# Stamping and linking

Neither linking nor loading looks at the properties of modules that are registered already. So the
properties of such a module may be changed before something is linked or afterwards: the same is
loaded and requested, and the registry is the same in the end.
-/

namespace Esm

-- ---------------------------------------------------------------------------
-- Changes that do not meet
-- ---------------------------------------------------------------------------

namespace Registry

variable {r : Registry} {h k : Handle} {change change' : Registered → Registered}

/-- A registry is known by its index and the modules of its handles. -/
theorem ext_get? {r r' : Registry} (index : r.index = r'.index)
    (same : ∀ k, r.get? k = r'.get? k) : r = r' := by
  have modules : r.modules = r'.modules := List.ext_getElem? same
  cases r
  cases r'
  simp only at modules index
  rw [modules, index]

/-- Changes of two modules may be made in either order, and so may two changes of one module if they
do not depend on each other. -/
theorem update_comm (r : Registry) (apart : k = h → ∀ m, change (change' m) = change' (change m)) :
    (r.update k change').update h change = (r.update h change).update k change' := by
  refine ext_get? rfl fun i => ?_
  simp only [get?_update]
  by_cases first : i = h
  · by_cases second : i = k
    · simp only [if_pos first, if_pos second, Option.map_map]
      exact congrArg (Option.map · (r.get? i)) (funext (apart (second.symm.trans first)))
    · simp only [if_neg second]
  · simp only [if_neg first]

theorem register_update (known : h < r.count) (m : Module) :
    (r.update h change).register m = ((r.register m).1.update h change, r.count) :=
  Prod.ext (add_update known change _) (count_update r h change)

/-- Change the properties of a module. -/
def restamp (r : Registry) (h : Handle) (change : ImportMeta → ImportMeta) : Registry :=
  r.update h fun m => { m with importMeta := change m.importMeta }

theorem find?_restamp (r : Registry) (h : Handle) (change : ImportMeta → ImportMeta)
    (name : String) : (r.restamp h change).find? name = r.find? name := rfl

/-- What is changed besides the properties may be changed before or after them. -/
theorem restamp_update (r : Registry) (h k : Handle) (change : ImportMeta → ImportMeta)
    (change' : Registered → Registered)
    (apart : ∀ m, { change' m with importMeta := change (change' m).importMeta } =
      change' { m with importMeta := change m.importMeta }) :
    (r.update k change').restamp h change = (r.restamp h change).update k change' :=
  update_comm r fun _ => apart

/-- A module that is stamped does not notice what becomes of another one. -/
theorem stamp_update (other : k ≠ h) (files : FileTree) (location : String) (real main : Bool) :
    (r.update h change).stamp files k location real main =
      (r.stamp files k location real main).map (·.update h change) := by
  have found : (r.update h change).get? k = r.get? k := by
    rw [get?_update, if_neg other]
  unfold Registry.stamp
  cases stampOf files location real main with
  | error e => rfl
  | ok properties =>
    rw [found]
    cases r.get? k with
    | none => rfl
    | some m =>
      simp only [bind, Except.bind, Except.map, foldl_define]
      exact congrArg Except.ok (update_comm r fun same => absurd same.symm other)

end Registry

-- ---------------------------------------------------------------------------
-- Loading and linking
-- ---------------------------------------------------------------------------

namespace Loader

open Registry

variable {loader : Loader} {files : FileTree} {r : Registry} {h : Handle}
  {change : Registered → Registered}

theorem accept_update (known : h < r.count) (location : String) (main : Bool) (content : Content) :
    accept files (r.update h change) location main content =
      ((accept files r location main content).1,
        (accept files r location main content).2.update h change) := by
  have other : r.count ≠ h := Nat.ne_of_gt known
  unfold accept
  split
  · rfl
  · unfold Loader.compile Registry.compile
    cases Module.compile content.source.text location with
    | error e => rfl
    | ok m =>
      have handle : (r.register m).2 = r.count := rfl
      simp only [Except.map, Interface.mapError_ok, register_update known, stamp_update other,
        handle]
      cases (r.register m).1.stamp files r.count location content.kind.isFile main with
      | error e => rfl
      | ok r' => rfl

/-- Loading does not notice what becomes of a registered module. -/
theorem loadModule_update (known : h < r.count) (location : String) (main : Bool)
    (requests : Requests) :
    loader.loadModule files location main (r.update h change) requests =
      ((loader.loadModule files location main r requests).1,
        (loader.loadModule files location main r requests).2.1.update h change,
        (loader.loadModule files location main r requests).2.2) := by
  unfold loadModule
  cases Content.load files loader.transport location with
  | error e => rfl
  | ok content =>
    simp only [accept_update known]

/-- Loading adds to a registry, so that every handle stays one of it. -/
theorem loadModule_count {location : String} {main : Bool} {r' : Registry}
    {requests requests' : Requests} {result : Except LoadError Handle}
    (call : loader.loadModule files location main r requests = (result, r', requests')) :
    r.count ≤ r'.count := by
  cases loadModule_loads call with
  | refused _ => exact Nat.le_refl _
  | @left m _ _ _ _ =>
    rw [(adds_register r m).count]
    exact Nat.le_add_right _ _
  | @added m properties _ _ =>
    rw [Adds.count (m := ⟨m, .compiled, [], properties⟩) rfl]
    exact Nat.le_add_right _ _

/-- Another state of linking, in which the properties of a registered module have been changed. -/
def Restamped (h : Handle) (change : ImportMeta → ImportMeta) (s t : Linking Requests) : Prop :=
  h < s.registry.count ∧ t = s.mapRegistry (·.restamp h change)

/-- Linking does not notice that the properties of a module are others. -/
theorem restamped_simulates (loader : Loader) (files : FileTree) (h : Handle)
    (change : ImportMeta → ImportMeta) :
    Linking.Simulates (loader.host files) (loader.host files) (Restamped h change) := by
  refine ⟨?_, ?_, ?_, ?_⟩
  · -- get?
    intro s t ⟨_, same⟩ k
    rw [same]
    unfold Linking.mapRegistry Registry.restamp
    rw [get?_update]
    split
    · rw [Option.map_map]
      rfl
    · rfl
  · -- require: a module that is loaded now gets a handle of its own
    intro s t ⟨known, same⟩ base request
    rw [same]
    cases ask : (loader.host files).ask s.host base request with
    | mk name state =>
      have ask' : (loader.host files).ask (s.mapRegistry (·.restamp h change)).host base request =
          (name, state) := ask
      cases found : s.registry.find? name with
      | some k =>
        exact ⟨_, _, _, Linking.require_registered ask found, Linking.require_registered ask' found,
          known, rfl⟩
      | none =>
        have loads : loader.loadModule files name false (s.registry.restamp h change) state = _ :=
          loadModule_update known name false state
        cases load : loader.loadModule files name false s.registry state with
        | mk result rest =>
          obtain ⟨r', requests'⟩ := rest
          rw [load] at loads
          exact ⟨_, _, _, Linking.require_loaded ask found load,
            Linking.require_loaded ask' found loads,
            Nat.lt_of_lt_of_le known (loadModule_count load), rfl⟩
  · -- setStatus
    intro s t ⟨known, same⟩ k status
    refine ⟨(count_update ..).symm ▸ known, ?_⟩
    have marked := restamp_update s.registry h k change
      (fun m => { m with status := status }) fun _ => rfl
    rw [same]
    exact congrArg (Linking.mk · s.host) marked.symm
  · -- linkedTo
    intro s t ⟨known, same⟩ k dependencies
    refine ⟨(count_update ..).symm ▸ known, ?_⟩
    have linked := restamp_update s.registry h k change
      (fun m => { m with dependencies := dependencies, status := .linked }) fun _ => rfl
    rw [same]
    exact congrArg (Linking.mk · s.host) linked.symm

theorem entries_foldl_define (r : Registry) (h : Handle) (properties : ImportMeta) :
    Entries r (properties.foldl (fun r p => r.define h p.1 p.2) r) := by
  induction properties generalizing r with
  | nil => exact .refl
  | cons p properties ih => exact .head (.define r h p.1 p.2) (ih _)

/-- All that a loader does to a registry is to compile into it and to define properties. -/
theorem host_enters (loader : Loader) (files : FileTree) : (loader.host files).Enters := by
  intro name r requests
  show Entries r (loader.loadModule files name false r requests).2.1
  unfold loadModule
  cases Content.load files loader.transport name with
  | error e => exact .refl
  | ok content =>
    unfold accept
    dsimp only
    split
    · exact .refl
    · unfold Loader.compile
      cases compiled : r.compile content.source.text name with
      | error e => exact .refl
      | ok answer =>
        obtain ⟨r', h⟩ := answer
        have entry : Entries r r' := .single (.compile compiled)
        dsimp only [Interface.mapError_ok]
        cases stamped : r'.stamp files h name content.kind.isFile false with
        | error e => exact entry
        | ok r'' =>
          obtain ⟨properties, m, -, -, rfl⟩ := stamp_eq_ok.1 stamped
          dsimp only
          rw [← foldl_define]
          exact entry.trans (entries_foldl_define r' h properties)

end Loader

namespace Linking

/-- A module that has been linked is past compiled. -/
theorem Links.past {σ ε : Type} {host : Host σ ε} (enters : host.Enters) {h : Handle}
    {s s' : Linking σ} (links : Links host h s (.ok ()) s') : s'.Past h := by
  have cases : Cases host (fun h s result s' => result.isOk = true → s'.Past h)
      (fun _ _ _ _ _ => True) := by
    refine ⟨?_, ?_, ?_, ?_, trivial, ?_, ?_, ?_, ?_⟩
    · -- unknown
      intro h s _ ok
      cases ok
    · -- settled
      intro h s m found past _
      exact ⟨m, found, past⟩
    · -- failed
      intro h s m e t _ _ _ _ ok
      cases ok
    · -- done
      intro h s m dependencies t found _ run _ _
      obtain ⟨m', found', -⟩ := marked_advances found ((advances_cases enters).linksAll run)
      refine ⟨{ m' with dependencies := dependencies, status := .linked }, ?_, nofun⟩
      unfold linkedTo mapRegistry
      rw [Registry.get?_update, if_pos rfl, found']
      rfl
    all_goals intros; trivial
  exact cases.links links rfl

end Linking

end Esm
