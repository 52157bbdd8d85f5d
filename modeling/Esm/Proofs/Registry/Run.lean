-- SUMMARY: Calls on a registry, the hosts they may use, and the registries that runs of calls lead to.
import Mathlib.Logic.Relation
import Esm.Registry.Evaluate

/-!
# Runs

A registry is changed by calls alone: modules are compiled or read into it, properties are defined,
and modules are linked and evaluated through a host, which itself makes such calls. A run is any
sequence of calls that starts from the empty registry. Each call may succeed or fail, and each may
use a host of its own, so that what can be loaded may change from one call to the next.
-/

namespace Esm

namespace Registry

/-- One call that brings in a module or defines a property. Such a call that fails changes
nothing. -/
inductive Entry : Registry → Registry → Prop where
  | compile {r r' : Registry} {h : Handle} {source name : String} :
    r.compile source name = .ok (r', h) → Entry r r'
  | read {r r' : Registry} {h : Handle} {order : ByteOrder} {bytes : List UInt8} :
    r.read order bytes = .ok (r', h) → Entry r r'
  | define (r : Registry) (h : Handle) (key : String) (value : MetaValue) :
    Entry r (r.define h key value)

/-- Any number of such calls. -/
abbrev Entries : Registry → Registry → Prop := Relation.ReflTransGen Entry

end Registry

open Registry

variable {σ ε : Type}

/-- A host that only brings in modules and defines properties. -/
def Host.Enters (host : Host σ ε) : Prop :=
  ∀ name r state, Entries r (host.load name r state).2.1

/-- A host that has nothing to load. Names are taken as they are. -/
def Host.bare : Host Unit String :=
  ⟨fun state _ specifier => (specifier, state), fun name r state => (.error name, r, state)⟩

theorem Host.bare_enters : Host.bare.Enters := fun _ _ _ => Relation.ReflTransGen.refl

/-- The hosts that calls may use. -/
abbrev HostClass := ∀ σ ε : Type, Host σ ε → Prop

/-- All hosts that only bring in modules and define properties. -/
def HostClass.entering : HostClass := fun _ _ host => host.Enters

/-- One call, with whether it is no linking and no evaluation that fails. -/
inductive Step (Admits : HostClass) : Bool → Registry → Registry → Prop where
  | entry {r r' : Registry} : Entry r r' → Step Admits true r r'
  | link {r : Registry} {σ ε : Type} {host : Host σ ε} {depth : Nat} {h : Handle} {state : σ}
    {result : Except (LinkError ε) Unit} {s : Linking σ} :
    Admits σ ε host → Linking.link host depth h ⟨r, state⟩ = some (result, s) →
    Step Admits result.isOk r s.registry
  | evaluate {r : Registry} {σ ε : Type} {host : Host σ ε} {depth : Nat} {h : Handle} {state : σ}
    {result : Except (LinkError ε) Unit} {s : Linking σ} :
    Admits σ ε host → Linking.evaluate host depth h ⟨r, state⟩ = some (result, s) →
    Step Admits result.isOk r s.registry

/-- The registries that calls lead to, with whether no linking and no evaluation has failed so
far. -/
inductive Run (Admits : HostClass) : Bool → Registry → Prop where
  | empty : Run Admits true .empty
  | step {smooth ok : Bool} {r r' : Registry} :
    Run Admits smooth r → Step Admits ok r r' → Run Admits (smooth && ok) r'

-- ---------------------------------------------------------------------------
-- What entries do
-- ---------------------------------------------------------------------------

namespace Registry

/-- A module that came from a source or from bytes. -/
inductive Made : Module → Prop where
  | compiled {source name : String} {m : Module} : Module.compile source name = .ok m → Made m
  | decoded {order : ByteOrder} {bytes : List UInt8} {m : Module} :
    Module.decode order bytes = .ok m → Made m

theorem map_register_eq_ok {ε : Type} {x : Except ε Module} {r r' : Registry} {h : Handle}
    (call : x.map r.register = .ok (r', h)) :
    ∃ m, x = .ok m ∧ r' = (r.register m).1 ∧ h = r.count := by
  cases x with
  | error e => cases call
  | ok m =>
    cases call
    exact ⟨m, rfl, rfl, rfl⟩

/-- An entry registers a module that was made, or defines a property. -/
theorem Entry.cases {r r' : Registry} (entry : Entry r r') :
    (∃ m, Made m ∧ r' = (r.register m).1) ∨ ∃ h key value, r' = r.define h key value := by
  cases entry with
  | compile call =>
    obtain ⟨m, hm, rfl, -⟩ := map_register_eq_ok call
    exact Or.inl ⟨m, .compiled hm, rfl⟩
  | read call =>
    obtain ⟨m, hm, rfl, -⟩ := map_register_eq_ok call
    exact Or.inl ⟨m, .decoded hm, rfl⟩
  | define h key value => exact Or.inr ⟨h, key, value, rfl⟩

theorem get?_count (r : Registry) : r.get? r.count = none :=
  List.getElem?_eq_none (Nat.le_refl _)

/-- A registered module stays what it is, its properties apart. -/
theorem Entry.kept {r r' : Registry} (entry : Entry r r') {h : Handle} {m : Registered}
    (found : r.get? h = some m) :
    ∃ properties, r'.get? h = some { m with importMeta := properties } := by
  obtain ⟨added, -, rfl⟩ | ⟨other, key, value, rfl⟩ := entry.cases
  · refine ⟨m.importMeta, ?_⟩
    rw [get?_register, if_neg (Nat.ne_of_lt (get?_eq_some_lt found)), found]
  · unfold Registry.define
    rw [get?_update, found]
    by_cases same : h = other
    · exact ⟨m.importMeta.define key value, by rw [if_pos same]; rfl⟩
    · exact ⟨m.importMeta, by rw [if_neg same]⟩

/-- A module that an entry adds is compiled and no more. -/
theorem Entry.added {r r' : Registry} (entry : Entry r r') {h : Handle} {m : Registered}
    (absent : r.get? h = none) (found : r'.get? h = some m) :
    Made m.module ∧ m.status = .compiled ∧ m.dependencies = [] := by
  obtain ⟨added, made, rfl⟩ | ⟨other, key, value, rfl⟩ := entry.cases
  · rw [get?_register, absent] at found
    split at found
    · cases found
      exact ⟨made, rfl, rfl⟩
    · cases found
  · unfold Registry.define at found
    rw [get?_update, absent] at found
    split at found
    · cases found
    · cases found

theorem Entries.kept {r r' : Registry} (entries : Entries r r') {h : Handle} {m : Registered}
    (found : r.get? h = some m) :
    ∃ properties, r'.get? h = some { m with importMeta := properties } := by
  induction entries with
  | refl => exact ⟨m.importMeta, found⟩
  | tail _ entry ih =>
    obtain ⟨properties, found'⟩ := ih
    obtain ⟨properties', found''⟩ := entry.kept found'
    exact ⟨properties', found''⟩

theorem Entries.added {r r' : Registry} (entries : Entries r r') {h : Handle} {m : Registered}
    (absent : r.get? h = none) (found : r'.get? h = some m) :
    Made m.module ∧ m.status = .compiled ∧ m.dependencies = [] := by
  induction entries generalizing m with
  | refl =>
    rw [absent] at found
    cases found
  | @tail r₁ r₂ _ entry ih =>
    cases middle : r₁.get? h with
    | none => exact entry.added middle found
    | some m₁ =>
      obtain ⟨properties, kept⟩ := entry.kept middle
      have fresh := ih middle
      rw [found] at kept
      cases kept
      exact fresh

-- ---------------------------------------------------------------------------
-- One more module
-- ---------------------------------------------------------------------------

/-- One registry is another with one more module. -/
def Adds (r : Registry) (m : Registered) (r' : Registry) : Prop := r' = r.add m

theorem adds_register (r : Registry) (m : Module) :
    r.Adds ⟨m, .compiled, [], []⟩ (r.register m).1 :=
  rfl

theorem Adds.get? {r r' : Registry} {m : Registered} (adds : r.Adds m r') (k : Handle) :
    r'.get? k = if k = r.count then some m else r.get? k := by
  rw [show r' = r.add m from adds, get?_add]

theorem Adds.find? {r r' : Registry} {m : Registered} (adds : r.Adds m r') (name : String) :
    r'.find? name = if m.module.name = name then some r.count else r.find? name := by
  rw [show r' = r.add m from adds, find?_add]

theorem Adds.indexed {r r' : Registry} {m : Registered} (adds : r.Adds m r')
    (indexed : r.Indexed) : r'.Indexed := by
  rw [show r' = r.add m from adds]
  exact indexed.add m

/-- A module that was just registered has no properties. -/
theorem get?_registered (r : Registry) (m : Module) :
    (r.register m).1.get? r.count = some ⟨m, .compiled, [], []⟩ :=
  (get?_register r m r.count).trans (if_pos rfl)

/-- What is found after a module is added was added, or was there. -/
theorem Adds.get?_eq_some {r r' : Registry} {m n : Registered} (adds : r.Adds m r') {k : Handle}
    (found : r'.get? k = some n) : (k = r.count ∧ n = m) ∨ r.get? k = some n := by
  rw [adds.get?] at found
  by_cases last : k = r.count
  · rw [if_pos last] at found
    exact Or.inl ⟨last, (Option.some.inj found).symm⟩
  · rw [if_neg last] at found
    exact Or.inr found

theorem Adds.count {r r' : Registry} {m : Registered} (adds : r.Adds m r') :
    r'.count = r.count + 1 := by
  rw [show r' = r.add m from adds]
  exact List.length_append

theorem count_update (r : Registry) (h : Handle) (change : Registered → Registered) :
    (r.update h change).count = r.count := List.length_modify ..

theorem modify_concat {α : Type} (xs : List α) (x : α) (change : α → α) :
    (xs ++ [x]).modify xs.length change = xs ++ [change x] := by
  induction xs with
  | nil => rfl
  | cons y xs ih => simpa using ih

/-- The module that was added last is changed. -/
theorem update_add (r : Registry) (m : Registered) {change : Registered → Registered}
    (same : (change m).module = m.module) :
    (r.add m).update r.count change = r.add (change m) := by
  unfold Registry.add Registry.update Registry.count
  rw [same]
  exact congrArg (Registry.mk · _) (modify_concat r.modules m change)

/-- A module is added behind those that are there, whatever becomes of them. -/
theorem add_update {r : Registry} {h : Handle} (known : h < r.count)
    (change : Registered → Registered) (m : Registered) :
    (r.update h change).add m = (r.add m).update h change := by
  have modules : r.modules.modify h change ++ [m] = (r.modules ++ [m]).modify h change := by
    apply List.ext_getElem?
    intro k
    have below : h < r.modules.length := known
    simp only [List.getElem?_append, List.getElem?_modify, List.length_modify]
    by_cases old : k < r.modules.length
    · simp only [if_pos old]
    · have other : h ≠ k := fun same => old (same ▸ below)
      simp [old, other]
  unfold Registry.add
  rw [count_update]
  exact congrArg (Registry.mk · _) modules

end Registry

end Esm
