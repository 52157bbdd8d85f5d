-- SUMMARY: How modules age over calls: from compiled to linked to evaluated, and never back.
import Esm.Proofs.Registry.Evaluation

/-!
# Lifecycle

Between calls no module is being linked, and no call takes a module back: one that is linked stays
so until it is evaluated, with the dependencies it was linked to, and one that is evaluated stays as
it is. What an evaluated module depends on is evaluated. A linking or evaluation that fails
evaluates nothing.
-/

namespace Esm

/-- What calls may make of a registered module. -/
structure Registered.Ages (m m' : Registered) : Prop where
  module : m'.module = m.module
  linked : m.status = .linked → m'.status = .linked ∨ m'.status = .evaluated
  evaluated : m.status = .evaluated → m'.status = .evaluated
  dependencies : m.status = .linked ∨ m.status = .evaluated → m'.dependencies = m.dependencies

theorem Registered.Ages.trans {m m' m'' : Registered} (first : m.Ages m') (second : m'.Ages m'') :
    m.Ages m'' := by
  have bound : m.status = .linked ∨ m.status = .evaluated →
      m'.status = .linked ∨ m'.status = .evaluated := by
    intro status
    cases status with
    | inl linked => exact first.linked linked
    | inr evaluated => exact Or.inr (first.evaluated evaluated)
  refine ⟨second.module.trans first.module, ?_, ?_, ?_⟩
  · intro linked
    cases first.linked linked with
    | inl linked' => exact second.linked linked'
    | inr evaluated' => exact Or.inr (second.evaluated evaluated')
  · intro evaluated
    exact second.evaluated (first.evaluated evaluated)
  · intro status
    exact (second.dependencies (bound status)).trans (first.dependencies status)

namespace Registry

/-- What calls may make of a registry: every module is still there, and has aged. -/
def Ages (r r' : Registry) : Prop :=
  ∀ ⦃h m⦄, r.get? h = some m → ∃ m', r'.get? h = some m' ∧ m.Ages m'

/-- Every module that is evaluated was evaluated before. -/
def EvaluatesNone (r r' : Registry) : Prop :=
  ∀ ⦃h m'⦄, r'.get? h = some m' → m'.status = .evaluated →
    ∃ m, r.get? h = some m ∧ m.status = .evaluated

theorem Ages.refl (r : Registry) : r.Ages r :=
  fun _ m found => ⟨m, found, rfl, Or.inl, id, fun _ => rfl⟩

theorem Ages.trans {r r' r'' : Registry} (first : r.Ages r') (second : r'.Ages r'') :
    r.Ages r'' := by
  intro h m found
  obtain ⟨m', found', ages⟩ := first found
  obtain ⟨m'', found'', ages'⟩ := second found'
  exact ⟨m'', found'', ages.trans ages'⟩

/-- Linking leaves a module that is past compiled alone. -/
theorem Advances.ages {r r' : Registry} (advances : r.Advances r') : r.Ages r' := by
  intro h m found
  obtain ⟨m', found', advance⟩ := advances.kept found
  refine ⟨m', found', advance.module, ?_, ?_, ?_⟩
  · intro linked
    have held := advance.held (by rw [linked]; exact nofun)
    exact Or.inl (held.1.trans linked)
  · intro evaluated
    have held := advance.held (by rw [evaluated]; exact nofun)
    exact held.1.trans evaluated
  · intro status
    have past : m.status ≠ .compiled := by
      intro compiled
      rw [compiled] at status
      cases status <;> contradiction
    exact (advance.held past).2

/-- Marking changes no more than the status of a module, and that to evaluated. -/
theorem Marks.ages {r r' : Registry} {pending : List Handle} (marks : r.Marks pending r') :
    r.Ages r' := by
  intro h m found
  obtain ⟨status, found', why⟩ := marks.kept found
  refine ⟨_, found', rfl, ?_, ?_, fun _ => rfl⟩
  · intro linked
    cases why with
    | inl same => exact Or.inl (same.trans linked)
    | inr evaluated => exact Or.inr evaluated.1
  · intro evaluated
    cases why with
    | inl same => exact same.trans evaluated
    | inr now => exact now.1

theorem Advances.evaluatesNone {r r' : Registry} (advances : r.Advances r') :
    r.EvaluatesNone r' := by
  intro h m' found' evaluated
  obtain ⟨m, found, -, status, -⟩ := advances.origin found' (by rw [evaluated]; decide)
  exact ⟨m, found, status.symm.trans evaluated⟩

end Registry

open Registry

-- ---------------------------------------------------------------------------
-- Calls
-- ---------------------------------------------------------------------------

/-- Every call ages the registry, however it ends. -/
theorem Step.ages {ok : Bool} {r r' : Registry} (step : Step .entering ok r r') : r.Ages r' := by
  cases step with
  | entry entry =>
    have entries : Entries r r' := .single entry
    exact entries.advances.ages
  | link enters call => exact ((Linking.advances_cases enters).links ⟨_, call⟩).ages
  | @evaluate _ _ _ _ _ h _ result _ enters call =>
    obtain ⟨t, hlink, rfl⟩ := Linking.evaluate_eq call
    have linked := ((Linking.advances_cases enters).links ⟨_, hlink⟩).ages
    cases result with
    | error e => exact linked
    | ok => exact linked.trans (markEvaluated_marks t.registry [h]).ages

/-- A call that fails evaluates nothing. -/
theorem Step.evaluatesNone {r r' : Registry} (step : Step .entering false r r') :
    r.EvaluatesNone r' := by
  generalize hok : false = ok at step
  cases step with
  | entry entry => cases hok
  | link enters call => exact ((Linking.advances_cases enters).links ⟨_, call⟩).evaluatesNone
  | @evaluate _ _ _ _ _ _ _ result _ enters call =>
    obtain ⟨t, hlink, rfl⟩ := Linking.evaluate_eq call
    cases result with
    | error e => exact ((Linking.advances_cases enters).links ⟨_, hlink⟩).evaluatesNone
    | ok => cases hok

/-- Any number of calls, each of which may succeed or fail. Calls that only look, and those that
bring in a module and fail, leave the registry as it is. -/
abbrev Calls : Registry → Registry → Prop :=
  Relation.ReflTransGen fun r r' => ∃ ok, Step .entering ok r r'

theorem Calls.ages {r r' : Registry} (calls : Calls r r') : r.Ages r' := by
  induction calls with
  | refl => exact .refl r
  | tail _ step ih =>
    obtain ⟨ok, step⟩ := step
    exact ih.trans step.ages

/-- After any run no module is being linked, and all that an evaluated module depends on is
evaluated. Whatever is called then, a linked module stays linked or becomes evaluated, an evaluated
one stays so, and both keep their dependencies; and a linking or evaluation that fails evaluates
nothing. -/
theorem Run.lifecycle {smooth : Bool} {r : Registry} (run : Run .entering smooth r) :
    r.Quiet ∧
    (∀ h m d, r.get? h = some m → m.status = .evaluated → d ∈ m.dependencies →
      ∃ n, r.get? d = some n ∧ n.status = .evaluated) ∧
    (∀ r', Calls r r' → r.Ages r') ∧
    ∀ r', Step .entering false r r' → r.EvaluatesNone r' := by
  obtain ⟨sound, quiet, -⟩ := run.sound
  refine ⟨quiet, ?_, fun r' calls => calls.ages, fun r' step => step.evaluatesNone⟩
  intro h m d found evaluated mem
  obtain ⟨n, found'⟩ := sound.present found mem
  exact ⟨n, found', sound.closed found evaluated mem found'⟩

/-- The module `b` imports `a`, which imports `b` and something that is nowhere. To link `b` fails,
and so does the next try; in between, `a` has aged. -/
theorem Run.lifecycle_cycle :
    let a : Module := ⟨"a", ⟨["b"], [], []⟩, ⟨[], []⟩⟩
    let b : Module := ⟨"b", ⟨["a", "missing"], [], []⟩, ⟨[], []⟩⟩
    let index : Table Handle := [("a", 0), ("b", 1)]
    let r : Registry := ⟨[⟨a, .linked, [1], []⟩, ⟨b, .compiled, [], []⟩], index⟩
    let r' : Registry := ⟨[⟨a, .evaluated, [1], []⟩, ⟨b, .evaluated, [], []⟩], index⟩
    Run .entering false r ∧ r.Quiet ∧ Step .entering false r r ∧ r.EvaluatesNone r ∧
      Calls r r' ∧ r.Ages r' := by
  intro a b index r r'
  have read : Run .entering true ⟨[⟨a, .compiled, [], []⟩, ⟨b, .compiled, [], []⟩], index⟩ :=
    (Run.empty.read a (by decide) (by decide)).read b (by decide) (by decide)
  have first : Linking.link Host.bare 2 1
      ⟨⟨[⟨a, .compiled, [], []⟩, ⟨b, .compiled, [], []⟩], index⟩, ()⟩ =
      some (.error (.host "missing"), ⟨r, ()⟩) :=
    rfl
  have again : Linking.link Host.bare 2 1 ⟨r, ()⟩ = some (.error (.host "missing"), ⟨r, ()⟩) := rfl
  have settled : Linking.link Host.bare 0 0 ⟨r, ()⟩ = some (.ok (), ⟨r, ()⟩) := rfl
  have evaluated : Linking.evaluate Host.bare 0 0 ⟨r, ()⟩ = some (.ok (), ⟨r', ()⟩) := by
    rw [Linking.evaluate, settled]
    cbv
  have run : Run .entering false r := read.step (.link Host.bare_enters first)
  have fails : Step .entering false r r := .link Host.bare_enters again
  have calls : Calls r r' := .single ⟨true, .evaluate Host.bare_enters evaluated⟩
  obtain ⟨quiet, -, ages, evaluatesNone⟩ := run.lifecycle
  exact ⟨run, quiet, fails, evaluatesNone r fails, calls, ages r' calls⟩

end Esm
