-- SUMMARY: What evaluation reaches is evaluated, and linked throughout as long as no call has failed.
import Esm.Proofs.Registry.Marking
import Esm.Proofs.Registry.Records
import Mathlib.Data.List.Permutation

/-!
# Evaluation

Once a module is evaluated, everything that it reaches through dependencies is evaluated. That each
of these modules has a dependency for each of its requests is certain as long as no linking has
failed. A linking that fails puts back the module it began with, on which others of a cycle may
depend by then; if one of those is evaluated, the module that was put back is marked with it,
although its requests were never linked.
-/

namespace Esm

namespace Registry

/-- No module is being linked. -/
def Quiet (r : Registry) : Prop := ∀ ⦃h m⦄, r.get? h = some m → m.status ≠ .linking

/-- Every evaluated module has a dependency for each request. -/
def Complete (r : Registry) : Prop :=
  ∀ ⦃h m⦄, r.get? h = some m → m.status = .evaluated → m.Resolved

-- ---------------------------------------------------------------------------
-- Entries and linking
-- ---------------------------------------------------------------------------

theorem Advances.quiet {r r' : Registry} (advances : r.Advances r') (quiet : r.Quiet) :
    r'.Quiet := by
  intro h m' found' linking
  obtain ⟨m, found, -, status, -⟩ := advances.origin found' (by rw [linking]; decide)
  exact quiet found (status.symm.trans linking)

theorem Advances.complete {r r' : Registry} (advances : r.Advances r') (complete : r.Complete) :
    r'.Complete := by
  intro h m' found' evaluated
  obtain ⟨m, found, module, status, dependencies⟩ :=
    advances.origin found' (by rw [evaluated]; decide)
  have resolved := complete found (status.symm.trans evaluated)
  unfold Registered.Resolved
  rw [dependencies, module]
  exact resolved

-- ---------------------------------------------------------------------------
-- Marking
-- ---------------------------------------------------------------------------

theorem Marks.quiet {r r' : Registry} {pending : List Handle} (marks : r.Marks pending r')
    (quiet : r.Quiet) : r'.Quiet := by
  intro h m' found' linking
  obtain ⟨m, found, -, status | ⟨status, -⟩⟩ := marks.origin found'
  · exact quiet found (status.symm.trans linking)
  · rw [status] at linking
    cases linking

/-- What a linked module reaches is linked or evaluated, if nothing that is linked depends on what
is not. -/
theorem Settled.reaches {r : Registry} (settled : r.Settled) (quiet : r.Quiet) {h k : Handle}
    (reaches : r.Reaches h k) {m n : Registered} (found : r.get? h = some m)
    (past : m.status ≠ .compiled) (found' : r.get? k = some n) :
    n.status = .linked ∨ n.status = .evaluated := by
  have bound : ∀ {k n}, r.get? k = some n → n.status ≠ .compiled →
      n.status = .linked ∨ n.status = .evaluated := by
    intro k n found past
    cases status : n.status with
    | compiled => exact absurd status past
    | linking => exact absurd status (quiet found)
    | linked => exact Or.inl rfl
    | evaluated => exact Or.inr rfl
  induction reaches generalizing n with
  | refl =>
    rw [found] at found'
    cases found'
    exact bound found past
  | tail _ depends ih =>
    obtain ⟨m', middle, mem⟩ := depends
    exact bound found' (settled middle (ih middle) mem found')

/-- Marking what a linked module reaches marks no module that is merely compiled. -/
theorem Marks.origin_bound {r r' : Registry} {h : Handle} {m : Registered}
    (marks : r.Marks [h] r') (settled : r.Settled) (quiet : r.Quiet) (found : r.get? h = some m)
    (past : m.status ≠ .compiled) {k : Handle} {n' : Registered} (found' : r'.get? k = some n')
    (bound : n'.status = .linked ∨ n'.status = .evaluated) :
    ∃ n, r.get? k = some n ∧ n' = { n with status := n'.status } ∧
      (n.status = .linked ∨ n.status = .evaluated) := by
  obtain ⟨n, before, same, status | ⟨-, h', mem, reaches⟩⟩ := marks.origin found'
  · exact ⟨n, before, same, status ▸ bound⟩
  · cases List.mem_singleton.1 mem
    exact ⟨n, before, same, settled.reaches quiet reaches found past before⟩

theorem Marks.settled {r r' : Registry} {h : Handle} {m : Registered} (marks : r.Marks [h] r')
    (settled : r.Settled) (quiet : r.Quiet) (found : r.get? h = some m)
    (past : m.status ≠ .compiled) : r'.Settled := by
  intro k n' d d' hk bound mem hd
  obtain ⟨n, before, same, bound⟩ := marks.origin_bound settled quiet found past hk bound
  rw [same] at mem
  obtain ⟨d₀, hd₀, -, status | ⟨status, -⟩⟩ := marks.origin hd
  · rw [status]
    exact settled before bound mem hd₀
  · rw [status]
    exact nofun

theorem Marks.complete {r r' : Registry} {h : Handle} {m : Registered} (marks : r.Marks [h] r')
    (sound : r.Sound) (complete : r.Complete) (settled : r.Settled) (quiet : r.Quiet)
    (found : r.get? h = some m) (past : m.status ≠ .compiled) : r'.Complete := by
  intro k n' hk evaluated
  obtain ⟨n, before, same, bound⟩ :=
    marks.origin_bound settled quiet found past hk (Or.inr evaluated)
  have resolved : n.Resolved := by
    rcases bound with linked | evaluated
    · exact sound.linked before linked
    · exact complete before evaluated
  rw [same]
  exact resolved

end Registry

-- ---------------------------------------------------------------------------
-- Runs
-- ---------------------------------------------------------------------------

open Registry

namespace Registry

/-- What holds of dependencies after calls none of which has failed to link. -/
structure Smooth (r : Registry) : Prop where
  settled : r.Settled
  complete : r.Complete

/-- A module past compiled has a dependency for each request. -/
theorem Smooth.resolved {r : Registry} (smooth : r.Smooth) (sound : r.Sound) (quiet : r.Quiet)
    {h : Handle} {m : Registered} (found : r.get? h = some m) (past : m.status ≠ .compiled) :
    m.Resolved := by
  cases status : m.status with
  | compiled => exact absurd status past
  | linking => exact absurd status (quiet found)
  | linked => exact sound.linked found status
  | evaluated => exact smooth.complete found status

/-- Where nothing is being linked, a module lacks dependencies only if it has none although it
requests something, and it is compiled, or was evaluated so. -/
theorem Sound.resolved_iff {r : Registry} (sound : r.Sound) (quiet : r.Quiet) {h : Handle}
    {m : Registered} (found : r.get? h = some m) :
    m.Resolved ↔ (m.status = .compiled ∨ m.status = .evaluated → m.dependencies = [] →
      m.module.interface.requests = []) := by
  unfold Registered.Resolved
  constructor
  · intro length _ none
    rw [none] at length
    exact List.eq_nil_of_length_eq_zero length.symm
  · intro waiting
    have empty : m.status = .compiled ∨ m.status = .evaluated → m.dependencies = [] →
        m.dependencies.length = m.module.interface.requests.length := by
      intro status none
      rw [none, waiting status none]
      rfl
    cases status : m.status with
    | compiled => exact empty (Or.inl status) (sound.unlinked found (Or.inl status))
    | linking => exact absurd status (quiet found)
    | linked => exact sound.linked found status
    | evaluated =>
      rcases sound.evaluated found status with resolved | none
      · exact resolved
      · exact empty (Or.inr status) none

end Registry

/-- What linking keeps at every call, and what it keeps as long as it succeeds. -/
theorem Linking.link_sound {σ ε : Type} {host : Host σ ε} (enters : host.Enters) {depth : Nat}
    {h : Handle} {s s' : Linking σ} {result : Except (LinkError ε) Unit}
    (call : Linking.link host depth h s = some (result, s')) (sound : s.registry.Sound)
    (quiet : s.registry.Quiet) :
    s'.registry.Sound ∧ s'.registry.Quiet ∧
      (result.isOk = true → s'.Past h ∧ (s.registry.Smooth → s'.registry.Smooth)) := by
  have run : Links host h s result s' := ⟨depth, call⟩
  have advances := (advances_cases enters).links run
  obtain ⟨sound', answer⟩ := (sound_cases enters).links run sound
  refine ⟨sound', advances.quiet quiet, ?_⟩
  intro ok
  cases result with
  | error e => cases ok
  | ok =>
    obtain ⟨past, settled⟩ := answer rfl
    exact ⟨past, fun smooth => ⟨settled smooth.settled, advances.complete smooth.complete⟩⟩

theorem Step.sound {ok : Bool} {r r' : Registry} (step : Step .entering ok r r') (sound : r.Sound)
    (quiet : r.Quiet) : r'.Sound ∧ r'.Quiet ∧ (ok = true → r.Smooth → r'.Smooth) := by
  cases step with
  | entry entry =>
    have entries : Entries r r' := .single entry
    refine ⟨sound.entries entries, entries.advances.quiet quiet, ?_⟩
    intro _ smooth
    exact ⟨smooth.settled.entries sound entries, entries.advances.complete smooth.complete⟩
  | link enters call =>
    obtain ⟨sound', quiet', answer⟩ := Linking.link_sound enters call sound quiet
    exact ⟨sound', quiet', fun ok => (answer ok).2⟩
  | @evaluate _ _ _ _ depth h state result s enters call =>
    obtain ⟨t, hlink, rfl⟩ := Linking.evaluate_eq call
    obtain ⟨sound', quiet', answer⟩ := Linking.link_sound enters hlink sound quiet
    cases result with
    | error e => exact ⟨sound', quiet', nofun⟩
    | ok =>
      obtain ⟨⟨m, found, past⟩, smooth'⟩ := answer rfl
      have marks := markEvaluated_marks t.registry [h]
      refine ⟨sound'.markEvaluated [h], marks.quiet quiet', ?_⟩
      intro _ smooth
      obtain ⟨settled, complete⟩ := smooth' smooth
      exact ⟨marks.settled settled quiet' found past,
        marks.complete sound' complete settled quiet' found past⟩

/-- What holds after any run, and what holds after a run in which nothing has failed to link. -/
theorem Run.sound {smooth : Bool} {r : Registry} (run : Run .entering smooth r) :
    r.Sound ∧ r.Quiet ∧ (smooth = true → r.Smooth) := by
  induction run with
  | empty => exact ⟨.empty, nofun, fun _ => ⟨.empty, nofun⟩⟩
  | step _ step ih =>
    obtain ⟨sound, quiet, smooth⟩ := ih
    obtain ⟨sound', quiet', kept⟩ := step.sound sound quiet
    refine ⟨sound', quiet', ?_⟩
    intro both
    obtain ⟨before, ok⟩ := Bool.and_eq_true_iff.1 both
    exact kept ok (smooth before)

/-- A module that is read into the registry of a run. -/
theorem Run.read {Admits : HostClass} {smooth : Bool} {r : Registry} (run : Run Admits smooth r)
    (m : Module) (size : m.Encodable) (indexed : m.code.Indexed) :
    Run Admits smooth (r.register m).1 := by
  have step : Step Admits true r (r.register m).1 :=
    .entry (.read (read_written size indexed .native r))
  have after := run.step step
  rw [Bool.and_true] at after
  exact after

-- ---------------------------------------------------------------------------
-- Evaluation
-- ---------------------------------------------------------------------------

namespace Linking

variable {σ ε : Type} {host : Host σ ε}

/-- After an evaluation that succeeds, whatever calls came before it, all that the module reaches is
registered and evaluated. Each of these modules has a dependency for each request exactly if, when
linking was done, the module reached none without dependencies that was compiled, or evaluated
before, and that requests something. That is so if no call has failed to link, and then nothing
that is linked or evaluated depends on a module whose requests are not linked. -/
theorem evaluate_reaches {smooth : Bool} {r : Registry} (run : Run .entering smooth r)
    (enters : host.Enters) {depth : Nat} {h : Handle} {state : σ} {s' : Linking σ}
    (call : evaluate host depth h ⟨r, state⟩ = some (.ok (), s')) :
    ∃ s, link host depth h ⟨r, state⟩ = some (.ok (), s) ∧
      (∀ d, s'.registry.Reaches h d →
        ∃ m, s'.registry.get? d = some m ∧ m.status = .evaluated) ∧
      ((∀ d m, s'.registry.Reaches h d → s'.registry.get? d = some m → m.Resolved) ↔
        ∀ d m, s.registry.Reaches h d → s.registry.get? d = some m →
          m.status = .compiled ∨ m.status = .evaluated → m.dependencies = [] →
          m.module.interface.requests = []) ∧
      (smooth = true →
        (∀ d m, s'.registry.Reaches h d → s'.registry.get? d = some m → m.Resolved) ∧
        ∀ k m d n, s'.registry.get? k = some m → m.status = .linked ∨ m.status = .evaluated →
          d ∈ m.dependencies → s'.registry.get? d = some n → n.Resolved) := by
  obtain ⟨sound, quiet, -⟩ := run.sound
  obtain ⟨s, hlink, after⟩ := evaluate_eq call
  have hs : s' = s.mapRegistry (·.markEvaluated [h]) := after
  obtain ⟨soundₛ, quietₛ, answer⟩ := link_sound enters hlink sound quiet
  obtain ⟨⟨m₀, found₀, -⟩, -⟩ := answer rfl
  have marks : s.registry.Marks [h] s'.registry := by
    rw [hs]
    exact markEvaluated_marks s.registry [h]
  have evaluated : ∀ d, s'.registry.Reaches h d →
      ∃ m, s'.registry.get? d = some m ∧ m.status = .evaluated := by
    intro d reaches
    have reached := soundₛ.reaches_evaluated found₀ (marks.reaches.1 reaches)
    rw [hs]
    exact reached
  refine ⟨s, hlink, evaluated, ?_, ?_⟩
  · constructor
    · intro resolved d m reaches found
      obtain ⟨status, found', -⟩ := marks.kept found
      have after := resolved d _ (marks.reaches.2 reaches) found'
      have before : m.Resolved := after
      exact (soundₛ.resolved_iff quietₛ found).1 before
    · intro waiting d m reaches found
      obtain ⟨n, before, same, -⟩ := marks.origin found
      have resolved : n.Resolved :=
        (soundₛ.resolved_iff quietₛ before).2 (waiting d n (marks.reaches.1 reaches) before)
      rw [same]
      exact resolved
  · intro ok
    obtain ⟨sound', quiet', smooth'⟩ := (run.step (.evaluate enters call)).sound
    have smooth := smooth' (Bool.and_eq_true_iff.2 ⟨ok, rfl⟩)
    refine ⟨?_, ?_⟩
    · intro d m reaches found
      obtain ⟨n, found', status⟩ := evaluated d reaches
      rw [found] at found'
      cases found'
      exact smooth.complete found status
    · intro k m d n found bound mem found'
      exact smooth.resolved sound' quiet' found' (smooth.settled found bound mem found')

/-- Two modules that import each other, read and then evaluated. -/
theorem evaluate_reaches_cycle :
    let a : Module := ⟨"a", ⟨["b"], [], []⟩, ⟨[], []⟩⟩
    let b : Module := ⟨"b", ⟨["a"], [], []⟩, ⟨[], []⟩⟩
    let index : Table Handle := [("a", 0), ("b", 1)]
    let r : Registry := ⟨[⟨a, .compiled, [], []⟩, ⟨b, .compiled, [], []⟩], index⟩
    let s' : Linking Unit := ⟨⟨[⟨a, .evaluated, [1], []⟩, ⟨b, .evaluated, [0], []⟩], index⟩, ()⟩
    Run .entering true r ∧ Host.bare.Enters ∧
      evaluate Host.bare 2 0 ⟨r, ()⟩ = some (.ok (), s') ∧ s'.registry.Reaches 0 1 ∧
      ∃ m, s'.registry.get? 1 = some m ∧ m.status = .evaluated ∧ m.Resolved := by
  intro a b index r s'
  have run : Run .entering true r :=
    (Run.empty.read a (by decide) (by decide)).read b (by decide) (by decide)
  have linked : link Host.bare 2 0 ⟨r, ()⟩ =
      some (.ok (), ⟨⟨[⟨a, .linked, [1], []⟩, ⟨b, .linked, [0], []⟩], index⟩, ()⟩) := rfl
  have call : evaluate Host.bare 2 0 ⟨r, ()⟩ = some (.ok (), s') := by
    rw [evaluate, linked]
    cbv
  have reaches : s'.registry.Reaches 0 1 := .single ⟨_, rfl, List.mem_singleton_self 1⟩
  obtain ⟨s, -, evaluated, -, smooth⟩ := evaluate_reaches run Host.bare_enters call
  obtain ⟨m, found, status⟩ := evaluated 1 reaches
  exact ⟨run, Host.bare_enters, call, reaches, m, found, status, (smooth rfl).1 1 m reaches found⟩

/-- The module `main` requests `b`, which requests `main`, and then something that is nowhere. To
link it fails, but leaves `b` linked. To evaluate `b` succeeds then, and `main` counts as evaluated
with none of its requests linked. -/
theorem evaluate_marks_put_back :
    let main : Module := ⟨"main", ⟨["b", "missing"], [], []⟩, ⟨[], []⟩⟩
    let b : Module := ⟨"b", ⟨["main"], [], []⟩, ⟨[], []⟩⟩
    let index : Table Handle := [("main", 0), ("b", 1)]
    let r : Registry := ⟨[⟨main, .compiled, [], []⟩, ⟨b, .linked, [0], []⟩], index⟩
    let s' : Linking Unit := ⟨⟨[⟨main, .evaluated, [], []⟩, ⟨b, .evaluated, [0], []⟩], index⟩, ()⟩
    Run .entering false r ∧ evaluate Host.bare 0 1 ⟨r, ()⟩ = some (.ok (), s') ∧
      s'.registry.Reaches 1 0 ∧
      ∃ m, s'.registry.get? 0 = some m ∧ m.status = .evaluated ∧ ¬ m.Resolved := by
  intro main b index r s'
  have read : Run .entering true ⟨[⟨main, .compiled, [], []⟩, ⟨b, .compiled, [], []⟩], index⟩ :=
    (Run.empty.read main (by decide) (by decide)).read b (by decide) (by decide)
  have link : link Host.bare 2 0 ⟨⟨[⟨main, .compiled, [], []⟩, ⟨b, .compiled, [], []⟩], index⟩, ()⟩ =
      some (.error (.host "missing"), ⟨r, ()⟩) :=
    rfl
  -- `b` counts as linked, so nothing is linked for it
  have settled : Linking.link Host.bare 0 1 ⟨r, ()⟩ = some (.ok (), ⟨r, ()⟩) := rfl
  have call : evaluate Host.bare 0 1 ⟨r, ()⟩ = some (.ok (), s') := by
    rw [evaluate, settled]
    cbv
  exact ⟨read.step (.link Host.bare_enters link), call, .single ⟨_, rfl, List.mem_singleton_self 0⟩,
    _, rfl, rfl, by decide⟩

end Linking

end Esm
