-- SUMMARY: The registry of modules: handles, states, properties and look-up by name.
import Esm.Encoding.Reader
import Esm.Table

/-!
# Registry

Modules are registered one after the other; the handle of a module is its place in that order. An
index is kept of the names: a name may be registered again, and then means the module registered
last. A registered module carries how far it is linked, the modules its requests were linked to, and
the properties of its `import.meta`.

Main statements: what registering and updating do to look-up by handle and by name, and that they
keep the index in step with the modules (`Indexed`).
-/

namespace Esm

/-- A registered module, as its place in the registry. A handle has no bound: as a word of 32 bits
it would be the same as long as there are no more modules than words. -/
abbrev Handle := Nat

/-- How far a module is on its way from compiled to evaluated. -/
inductive Status where
  | compiled
  | linking
  | linked
  | evaluated
deriving DecidableEq, Repr

/-- The value of a property of `import.meta`. -/
inductive MetaValue where
  | text (value : String)
  | flag (value : Bool)
deriving DecidableEq, Repr

/-- The properties of a module's `import.meta`, in the order of their first definition. -/
abbrev ImportMeta := Table MetaValue

/-- A registered module. -/
structure Registered where
  module : Module
  status : Status
  dependencies : List Handle
  importMeta : ImportMeta
deriving DecidableEq, Repr

/-- The registered modules, in order of registration, and the handles by name. -/
structure Registry where
  modules : List Registered
  index : Table Handle
deriving DecidableEq, Repr

namespace Registry

def empty : Registry := ⟨[], []⟩

def count (r : Registry) : Nat := r.modules.length

/-- The module of a handle. -/
def get? (r : Registry) (h : Handle) : Option Registered := r.modules[h]?

/-- The handle that the index gives for a name. -/
def find? (r : Registry) (name : String) : Option Handle := r.index.lookup name

/-- Put a module behind the others, and its name into the index. -/
def add (r : Registry) (m : Registered) : Registry :=
  ⟨r.modules ++ [m], r.index.define m.module.name r.count⟩

/-- Register a compiled module. -/
def register (r : Registry) (m : Module) : Registry × Handle :=
  (r.add ⟨m, .compiled, [], []⟩, r.count)

/-- Change the module of a handle. -/
def update (r : Registry) (h : Handle) (change : Registered → Registered) : Registry :=
  { r with modules := r.modules.modify h change }

def setStatus (r : Registry) (h : Handle) (status : Status) : Registry :=
  r.update h fun m => { m with status := status }

/-- Define a property of a module's `import.meta`. -/
def define (r : Registry) (h : Handle) (key : String) (value : MetaValue) : Registry :=
  r.update h fun m => { m with importMeta := m.importMeta.define key value }

/-- Compile a source and register it. -/
def compile (r : Registry) (source name : String) : Except SyntaxError (Registry × Handle) :=
  (Module.compile source name).map r.register

/-- Read a serialized module and register it under the name it holds. -/
def read (r : Registry) (order : ByteOrder) (bytes : List UInt8) :
    Except Encoding.Fault (Registry × Handle) :=
  (Module.decode order bytes).map r.register

/-! ## Look-up -/

theorem get?_update (r : Registry) (h other : Handle) (change : Registered → Registered) :
    (r.update h change).get? other =
      if other = h then (r.get? other).map change else r.get? other := by
  simp only [update, get?, List.getElem?_modify]
  by_cases same : other = h
  · simp [same]
  · simp [same, Ne.symm same]

theorem get?_add (r : Registry) (m : Registered) (h : Handle) :
    (r.add m).get? h = if h = r.count then some m else r.get? h := by
  simp only [add, get?, count, List.getElem?_append, List.getElem?_singleton]
  by_cases same : h = r.modules.length
  · simp [same]
  · rcases Nat.lt_or_ge h r.modules.length with below | above
    · simp [same, below]
    · have later : ¬ h - r.modules.length = 0 := fun h' =>
        same (Nat.le_antisymm (Nat.sub_eq_zero_iff_le.1 h') above)
      rw [List.getElem?_eq_none above]
      simp [same, later, Nat.not_lt.2 above]

theorem get?_register (r : Registry) (m : Module) (h : Handle) :
    (r.register m).1.get? h =
      if h = r.count then some ⟨m, .compiled, [], []⟩ else r.get? h :=
  r.get?_add _ h

@[simp] theorem find?_update (r : Registry) (h : Handle) (change : Registered → Registered)
    (name : String) : (r.update h change).find? name = r.find? name := rfl

@[simp] theorem find?_setStatus (r : Registry) (h : Handle) (status : Status) (name : String) :
    (r.setStatus h status).find? name = r.find? name := rfl

theorem find?_add (r : Registry) (m : Registered) (name : String) :
    (r.add m).find? name = if m.module.name = name then some r.count else r.find? name := by
  simp only [add, find?, Table.lookup_define, eq_comm]

theorem find?_register (r : Registry) (m : Module) (name : String) :
    (r.register m).1.find? name = if m.name = name then some r.count else r.find? name :=
  r.find?_add _ name

/-! ## The index -/

/-- The index is in step with the modules: a name that it gives a handle for is that of the module
there, which was registered last under it, and it has every name. -/
structure Indexed (r : Registry) : Prop where
  named : ∀ {name h}, r.find? name = some h → ∃ m, r.get? h = some m ∧ m.module.name = name
  known : ∀ {h m}, r.get? h = some m → ∃ last, r.find? m.module.name = some last ∧ h ≤ last

theorem get?_eq_some_lt {r : Registry} {h : Handle} {m : Registered} (found : r.get? h = some m) :
    h < r.count :=
  (List.getElem?_eq_some_iff.1 found).1

theorem Indexed.empty : Indexed .empty := ⟨nofun, nofun⟩

/-- A module is put behind the others and its name into the index. Only after both is the index in
step again. -/
theorem Indexed.add {r : Registry} (indexed : r.Indexed) (m : Registered) : (r.add m).Indexed := by
  refine ⟨fun {name h} found => ?_, fun {h n} found => ?_⟩
  · rw [find?_add] at found
    split at found
    · rename_i same
      cases found
      exact ⟨m, (r.get?_add m r.count).trans (if_pos rfl), same⟩
    · obtain ⟨n, there, named⟩ := indexed.named found
      have older : h ≠ r.count := Nat.ne_of_lt (get?_eq_some_lt there)
      exact ⟨n, (r.get?_add m h).trans ((if_neg older).trans there), named⟩
  · rw [find?_add]
    rw [get?_add] at found
    split at found
    · rename_i last
      cases found
      exact ⟨r.count, if_pos rfl, Nat.le_of_eq last⟩
    · obtain ⟨last, known, latest⟩ := indexed.known found
      by_cases again : m.module.name = n.module.name
      · exact ⟨r.count, if_pos again, Nat.le_of_lt (get?_eq_some_lt found)⟩
      · exact ⟨last, (if_neg again).trans known, latest⟩

theorem Indexed.register {r : Registry} (indexed : r.Indexed) (m : Module) :
    (r.register m).1.Indexed :=
  indexed.add _

/-- The index stays in step when a module's name is left alone. -/
theorem Indexed.update {r : Registry} (indexed : r.Indexed) (h : Handle)
    {change : Registered → Registered} (same : ∀ m, (change m).module = m.module) :
    (r.update h change).Indexed := by
  refine ⟨fun {name k} found => ?_, fun {k n} found => ?_⟩
  · obtain ⟨m, there, named⟩ := indexed.named found
    rw [get?_update, there]
    by_cases here : k = h
    · exact ⟨change m, if_pos here, by rw [same, named]⟩
    · exact ⟨m, if_neg here, named⟩
  · rw [get?_update] at found
    split at found
    · obtain ⟨m, there, rfl⟩ := Option.map_eq_some_iff.1 found
      rw [same]
      exact indexed.known there
    · exact indexed.known found

/-- A name that is not found is that of no module. -/
theorem Indexed.find?_eq_none {r : Registry} (indexed : r.Indexed) {name : String} :
    r.find? name = none ↔ ∀ h m, r.get? h = some m → m.module.name ≠ name := by
  constructor
  · rintro none h m found rfl
    obtain ⟨last, known, -⟩ := indexed.known found
    rw [none] at known
    cases known
  · intro absent
    cases found : r.find? name with
    | none => rfl
    | some h =>
      obtain ⟨m, there, named⟩ := indexed.named found
      exact absurd named (absent h m there)

end Registry

end Esm
