-- SUMMARY: Handles are issued in order, a name means the module registered last under it, and modules never change.
import Mathlib.Data.List.Permutation
import Esm.Proofs.Registry.Records
import Esm.Proofs.Registry.Supply

/-!
# Handles

Whatever is done with a registry, and however it ends, there is a list of the registrations that
succeeded, each with the name of the module and the handle that was answered. The handles in it
count up from the number of modules there were. Since the index stays in step with the modules, it
gives for a name the greatest handle in the list that was issued for it. A registration that fails
changes nothing, and a module stays what it was when it was registered, so it is written as the same
bytes ever after.
-/

namespace Esm.Registry

-- ---------------------------------------------------------------------------
-- Registrations
-- ---------------------------------------------------------------------------

/-- A call that is to register a module. -/
inductive Registration where
  | compile (source name : String)
  | read (order : ByteOrder) (bytes : List UInt8)

/-- Why a call registers no module. -/
inductive Refusal where
  | syntaxError (e : SyntaxError)
  | malformed (fault : Encoding.Fault)

/-- What a call comes to: the registry with one more module and its handle, or why there is none. -/
def Registration.outcome (r : Registry) : Registration → Except Refusal (Registry × Handle)
  | .compile source name => (r.compile source name).mapError .syntaxError
  | .read order bytes => (r.read order bytes).mapError .malformed

/-- Make a call that is to register a module. What it answers comes with the registry that is there
afterwards. -/
def perform (r : Registry) (c : Registration) : Except Refusal Handle × Registry :=
  match c.outcome r with
  | .ok (r', h) => (.ok h, r')
  | .error refusal => (.error refusal, r)

/-- A call that is to register a module fails and changes nothing, or it registers one module that
it made, under the next handle. -/
theorem perform_cases (r : Registry) (c : Registration) :
    (∃ refusal, r.perform c = (.error refusal, r)) ∨
      ∃ m, Made m ∧ r.perform c = (.ok r.count, (r.register m).1) := by
  unfold perform Registration.outcome
  cases c with
  | compile source name =>
    dsimp only [Registry.compile]
    cases compiled : Module.compile source name with
    | error e => exact Or.inl ⟨.syntaxError e, rfl⟩
    | ok m => exact Or.inr ⟨m, .compiled compiled, rfl⟩
  | read order bytes =>
    dsimp only [Registry.read]
    cases decoded : Module.decode order bytes with
    | error fault => exact Or.inl ⟨.malformed fault, rfl⟩
    | ok m => exact Or.inr ⟨m, .decoded decoded, rfl⟩

/-- The list of the registrations that succeed on the way from one registry to another, in order:
the name of each module and the handle that was answered. In between, what is known about a module
may change, but not the module. -/
inductive Issues (r : Registry) : List (String × Handle) → Registry → Prop where
  | refl : Issues r [] r
  | register {log : List (String × Handle)} {r' r'' : Registry} {c : Registration} {h : Handle}
    {m : Registered} :
    Issues r log r' → r'.perform c = (.ok h, r'') → r''.get? h = some m →
    Issues r (log ++ [(m.module.name, h)]) r''
  | change {log : List (String × Handle)} {r' : Registry} {h : Handle}
    {change : Registered → Registered} :
    Issues r log r' → (∀ m, (change m).module = m.module) → Issues r log (r'.update h change)

variable {r r' r'' : Registry} {log log' : List (String × Handle)}

theorem Issues.trans (first : Issues r log r') (second : Issues r' log' r'') :
    Issues r (log ++ log') r'' := by
  induction second with
  | refl =>
    rw [List.append_nil]
    exact first
  | register _ call found ih =>
    rw [← List.append_assoc]
    exact ih.register call found
  | change _ same ih => exact ih.change same

/-- A registration that succeeds issues the next handle, for the name of the module it made. -/
theorem perform_ok {c : Registration} {h : Handle} (call : r.perform c = (.ok h, r')) :
    ∃ m, Made m ∧ h = r.count ∧ r' = (r.register m).1 := by
  obtain ⟨refusal, failed⟩ | ⟨m, made, registered⟩ := perform_cases r c
  · rw [failed] at call
    cases call
  · rw [registered] at call
    cases call
    exact ⟨m, made, rfl, rfl⟩

theorem Entry.issues (entry : Entry r r') : ∃ log, Issues r log r' := by
  have register : ∀ {c : Registration} {h : Handle}, c.outcome r = .ok (r', h) →
      ∃ log, Issues r log r' := by
    intro c h outcome
    have call : r.perform c = (.ok h, r') := by
      unfold perform
      rw [outcome]
    obtain ⟨m, -, rfl, rfl⟩ := perform_ok call
    have found : (r.register m).1.get? r.count = some ⟨m, .compiled, [], []⟩ := by
      rw [get?_register, if_pos rfl]
    exact ⟨_, Issues.refl.register call found⟩
  cases entry with
  | @compile _ h source name call =>
    apply @register (.compile source name) h
    show (r.compile source name).mapError _ = _
    rw [call]
    rfl
  | @read _ h order bytes call =>
    apply @register (.read order bytes) h
    show (r.read order bytes).mapError _ = _
    rw [call]
    rfl
  | define h key value => exact ⟨[], Issues.refl.change fun _ => rfl⟩

/-- Whatever is done with a registry, there is a list of what was registered. -/
theorem Evolves.issues (evolves : Evolves r r') : ∃ log, Issues r log r' := by
  refine evolves.keeps (P := fun r' => ∃ log, Issues r log r') ?_ ?_ ⟨[], .refl⟩
  · rintro r' r'' entry ⟨log, before⟩
    obtain ⟨log', within⟩ := entry.issues
    exact ⟨log ++ log', before.trans within⟩
  · rintro r' h change same ⟨log, before⟩
    exact ⟨log, before.change same⟩

-- ---------------------------------------------------------------------------
-- What modules are
-- ---------------------------------------------------------------------------

/-- Every module is still there, and is what it was. -/
def Keeps (r r' : Registry) : Prop :=
  ∀ ⦃h m⦄, r.get? h = some m → ∃ m', r'.get? h = some m' ∧ m'.module = m.module

theorem Keeps.refl (r : Registry) : r.Keeps r := fun _ m found => ⟨m, found, rfl⟩

theorem Keeps.trans (first : r.Keeps r') (second : r'.Keeps r'') : r.Keeps r'' := by
  intro h m found
  obtain ⟨m', found', same⟩ := first found
  obtain ⟨m'', found'', same'⟩ := second found'
  exact ⟨m'', found'', same'.trans same⟩

theorem keeps_register (r : Registry) (m : Module) : r.Keeps (r.register m).1 := by
  intro h n found
  refine ⟨n, ?_, rfl⟩
  rw [get?_register, if_neg (Nat.ne_of_lt (get?_eq_some_lt found)), found]

theorem keeps_update (r : Registry) (h : Handle) {change : Registered → Registered}
    (same : ∀ m, (change m).module = m.module) : r.Keeps (r.update h change) := by
  intro k m found
  rw [get?_update, found]
  by_cases here : k = h
  · exact ⟨change m, by rw [if_pos here]; rfl, same m⟩
  · exact ⟨m, by rw [if_neg here], rfl⟩

theorem Issues.keeps (issues : Issues r log r') : r.Keeps r' := by
  induction issues with
  | refl => exact .refl r
  | register _ call _ ih =>
    obtain ⟨m, -, rfl, rfl⟩ := perform_ok call
    exact ih.trans (keeps_register _ m)
  | change _ same ih => exact ih.trans (keeps_update _ _ same)

-- ---------------------------------------------------------------------------
-- What the list says
-- ---------------------------------------------------------------------------

theorem count_register (r : Registry) (m : Module) : (r.register m).1.count = r.count + 1 := by
  simp [register, add, count]

/-- A list tells which handles there are and which names they are for. -/
structure Lists (log : List (String × Handle)) (r : Registry) : Prop where
  /-- Handles are issued one after the other. -/
  handles : log.map Prod.snd = List.range r.count
  registered : ∀ name h,
    (name, h) ∈ log ↔ ∃ m, r.get? h = some m ∧ m.module.name = name

/-- A list tells what is registered, and what the index gives for each name. -/
structure Indexes (log : List (String × Handle)) (r : Registry) : Prop extends Lists log r where
  /-- A name means the greatest handle that was issued for it. -/
  latest : ∀ name h,
    r.find? name = some h ↔ (name, h) ∈ log ∧ ∀ k, (name, k) ∈ log → k ≤ h
  never : ∀ name, r.find? name = none ↔ ∀ h, (name, h) ∉ log

theorem Lists.empty : Lists [] .empty :=
  ⟨rfl, fun _ _ => ⟨nofun, fun ⟨_, found, _⟩ => nomatch found⟩⟩

theorem Lists.register (lists : Lists log r) (m : Module) :
    Lists (log ++ [(m.name, r.count)]) (r.register m).1 := by
  refine ⟨?_, fun name h => ?_⟩
  · rw [List.map_append, lists.handles, count_register, List.range_succ]
    rfl
  · rw [List.mem_append, List.mem_singleton, Prod.mk.injEq, lists.registered, get?_register]
    by_cases last : h = r.count
    · subst last
      rw [get?_count, if_pos rfl]
      constructor
      · rintro (⟨n, absent, -⟩ | ⟨rfl, -⟩)
        · cases absent
        · exact ⟨_, rfl, rfl⟩
      · rintro ⟨n, added, rfl⟩
        cases added
        exact Or.inr ⟨rfl, rfl⟩
    · rw [if_neg last]
      constructor
      · rintro (before | ⟨-, last'⟩)
        · exact before
        · exact absurd last' last
      · exact Or.inl

theorem Lists.update (lists : Lists log r) (h : Handle) {change : Registered → Registered}
    (same : ∀ m, (change m).module = m.module) : Lists log (r.update h change) := by
  refine ⟨?_, fun name k => ?_⟩
  · have count : (r.update h change).count = r.count := List.length_modify ..
    rw [count, lists.handles]
  · rw [lists.registered, get?_update]
    by_cases here : k = h
    · rw [if_pos here]
      constructor
      · rintro ⟨m, found, named⟩
        exact ⟨change m, by rw [found]; rfl, by rw [same, named]⟩
      · rintro ⟨m', found', named⟩
        obtain ⟨m, found, rfl⟩ := Option.map_eq_some_iff.1 found'
        exact ⟨m, found, by rw [← named, same]⟩
    · rw [if_neg here]

/-- The list goes on as the registry does. -/
theorem Issues.lists (issues : Issues r log' r') (before : Lists log r) :
    Lists (log ++ log') r' := by
  induction issues with
  | refl =>
    rw [List.append_nil]
    exact before
  | register _ call found ih =>
    obtain ⟨m, -, rfl, rfl⟩ := perform_ok call
    rw [get?_register, if_pos rfl] at found
    cases found
    rw [← List.append_assoc]
    exact ih.register m
  | change _ same ih => exact ih.update _ same

/-- If the index is in step with the modules, the list tells what it gives. -/
theorem Lists.indexes (lists : Lists log r) (indexed : r.Indexed) : Indexes log r := by
  refine { lists with latest := fun name h => ?_, never := fun name => ?_ }
  · constructor
    · intro found
      refine ⟨(lists.registered name h).2 (indexed.named found), fun k mem => ?_⟩
      obtain ⟨m, there, rfl⟩ := (lists.registered name k).1 mem
      obtain ⟨last, known, latest⟩ := indexed.known there
      cases found.symm.trans known
      exact latest
    · rintro ⟨mem, greatest⟩
      obtain ⟨m, there, rfl⟩ := (lists.registered name h).1 mem
      obtain ⟨last, known, latest⟩ := indexed.known there
      have issued := (lists.registered _ last).2 (indexed.named known)
      rw [known, Nat.le_antisymm latest (greatest last issued)]
  · rw [indexed.find?_eq_none]
    constructor
    · intro absent h mem
      obtain ⟨m, there, named⟩ := (lists.registered name h).1 mem
      exact absent h m there named
    · intro never h m there named
      exact never h ((lists.registered name h).2 ⟨m, there, named⟩)

-- ---------------------------------------------------------------------------
-- Reached registries
-- ---------------------------------------------------------------------------

/-- However a registry was reached, the list of what was registered tells which handles there are
and what each name means, and so does the list as it goes on. A registration that fails changes
nothing. A module stays what it is, and is written as the same bytes at any later point. -/
theorem Evolves.handles (reached : Evolves .empty r) (later : Evolves r r') :
    ∃ log added, Issues .empty log r ∧ Indexes log r ∧
      Issues r added r' ∧ Indexes (log ++ added) r' ∧
      (∀ c refusal, (r.perform c).1 = .error refusal → (r.perform c).2 = r) ∧
      ∀ h m, r.get? h = some m → ∃ m', r'.get? h = some m' ∧ m'.module = m.module ∧
        ∀ order, m'.module.encode order = m.module.encode order := by
  obtain ⟨log, issues⟩ := reached.issues
  obtain ⟨added, issues'⟩ := later.issues
  have lists : Lists log r := issues.lists .empty
  have indexed : r.Indexed := reached.indexed .empty
  have indexes : Indexes log r := lists.indexes indexed
  have indexes' : Indexes (log ++ added) r' :=
    (issues'.lists lists).indexes (later.indexed indexed)
  refine ⟨log, added, issues, indexes, issues', indexes', ?_, ?_⟩
  · intro c refusal failed
    obtain ⟨refusal', unchanged⟩ | ⟨m, -, registered⟩ := perform_cases r c
    · rw [unchanged]
    · rw [registered] at failed
      cases failed
  · intro h m found
    obtain ⟨m', found', same⟩ := issues'.keeps found
    exact ⟨m', found', same, fun order => by rw [same]⟩

/-- Two modules are registered as `a`, and to link the first fails in between. The name means the
second, which imports itself. -/
theorem Evolves.handles_again :
    let first : Module := ⟨"a", ⟨["a", "missing"], [], []⟩, ⟨[], []⟩⟩
    let second : Module := ⟨"a", ⟨["a"], ["b"], []⟩, ⟨["b"], [⟨.identifier, 0⟩]⟩⟩
    let r : Registry := ⟨[⟨first, .compiled, [], []⟩, ⟨second, .compiled, [], []⟩], [("a", 1)]⟩
    let r' : Registry := ⟨[⟨first, .compiled, [], []⟩, ⟨second, .evaluated, [1], []⟩], [("a", 1)]⟩
    Evolves .empty r ∧ Evolves r r' ∧ ∃ log added, Indexes log r ∧ Indexes (log ++ added) r' ∧
      ("a", 0) ∈ log ∧ r'.find? "a" = some 1 ∧
      ∃ m', r'.get? 1 = some m' ∧ m'.module.encode .swapped = second.encode .swapped := by
  intro first second r r'
  let r₀ : Registry := ⟨[⟨first, .compiled, [], []⟩], [("a", 0)]⟩
  have read : Registry.empty.read .native (first.encode .native) = .ok (r₀, 0) :=
    read_written (by decide) (by decide) .native .empty
  have fails : Linking.link Host.bare 1 0 ⟨r₀, ()⟩ =
      some (.error (.host "missing"), ⟨r₀, ()⟩) := rfl
  have again : r₀.read .swapped (second.encode .swapped) = .ok (r, 1) :=
    read_written (by decide) (by decide) .swapped r₀
  have linked : Linking.link Host.bare 1 1 ⟨r, ()⟩ = some (.ok (), ⟨⟨[⟨first, .compiled, [], []⟩,
      ⟨second, .linked, [1], []⟩], [("a", 1)]⟩, ()⟩) := rfl
  have evaluated : Linking.evaluate Host.bare 1 1 ⟨r, ()⟩ = some (.ok (), ⟨r', ()⟩) := by
    rw [Linking.evaluate, linked]
    cbv
  have loads : ∀ name r state, Evolves r (Host.bare.load name r state).2.1 :=
    fun _ r _ => .refl r
  have reached : Evolves .empty r :=
    .entry (.link loads (.entry (.refl _) (.read read)) fails) (.read again)
  have later : Evolves r r' := .evaluate loads (.refl r) evaluated
  obtain ⟨log, added, -, indexes, -, indexes', -, stays⟩ := reached.handles later
  obtain ⟨m', found', -, bytes⟩ := stays 1 _ rfl
  have issued : ("a", 0) ∈ log := (indexes.registered "a" 0).2 ⟨_, rfl, rfl⟩
  exact ⟨reached, later, log, added, indexes, indexes', issued, rfl, m', found', bytes .swapped⟩

end Esm.Registry
