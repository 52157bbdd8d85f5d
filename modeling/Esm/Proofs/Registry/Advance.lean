-- SUMMARY: What linking leaves alone: it moves modules from compiled to linked and touches no others.
import Esm.Proofs.Registry.LinkInduction
import Esm.Proofs.Registry.Run

/-!
# Advance

However it ends, linking keeps every registered module under its handle, changes the status and the
dependencies of none that is past compiled, and leaves a compiled one compiled or linked. So the
modules marked as being linked are the same before and after.
-/

namespace Esm

/-- What linking may make of a registered module. -/
structure Registered.Advances (m m' : Registered) : Prop where
  module : m'.module = m.module
  held : m.status ≠ .compiled → m'.status = m.status ∧ m'.dependencies = m.dependencies
  moved : m.status = .compiled → m'.status = .compiled ∨ m'.status = .linked

theorem Registered.Advances.of_same {m m' : Registered} (module : m'.module = m.module)
    (status : m'.status = m.status) (dependencies : m'.dependencies = m.dependencies) :
    m.Advances m' :=
  ⟨module, fun _ => ⟨status, dependencies⟩, fun compiled => Or.inl (status.trans compiled)⟩

theorem Registered.Advances.trans {m m' m'' : Registered} (first : m.Advances m')
    (second : m'.Advances m'') : m.Advances m'' := by
  refine ⟨second.module.trans first.module, ?_, ?_⟩
  · intro past
    obtain ⟨status, dependencies⟩ := first.held past
    obtain ⟨status', dependencies'⟩ := second.held (status ▸ past)
    exact ⟨status'.trans status, dependencies'.trans dependencies⟩
  · intro compiled
    rcases first.moved compiled with status | status
    · exact second.moved status
    · have past : m'.status ≠ .compiled := by rw [status]; exact nofun
      exact Or.inr ((second.held past).1.trans status)

namespace Registry

/-- What linking may make of a registry. -/
structure Advances (r r' : Registry) : Prop where
  kept : ∀ {h m}, r.get? h = some m → ∃ m', r'.get? h = some m' ∧ m.Advances m'
  added : ∀ {h m'}, r.get? h = none → r'.get? h = some m' →
    m'.status = .compiled ∨ m'.status = .linked

theorem Advances.refl (r : Registry) : r.Advances r := by
  refine ⟨fun {h m} found => ⟨m, found, .of_same rfl rfl rfl⟩, ?_⟩
  intro h m absent found
  rw [absent] at found
  cases found

theorem Advances.trans {r r' r'' : Registry} (first : r.Advances r') (second : r'.Advances r'') :
    r.Advances r'' := by
  refine ⟨?_, ?_⟩
  · intro h m found
    obtain ⟨m', found', advance⟩ := first.kept found
    obtain ⟨m'', found'', advance'⟩ := second.kept found'
    exact ⟨m'', found'', advance.trans advance'⟩
  · intro h m'' absent found
    cases between : r'.get? h with
    | none => exact second.added between found
    | some m' =>
      obtain ⟨_, found', advance⟩ := second.kept between
      rw [found] at found'
      cases found'
      rcases first.added absent between with status | status
      · exact advance.moved status
      · have past : m'.status ≠ .compiled := by rw [status]; exact nofun
        exact Or.inr ((advance.held past).1.trans status)

/-- Behind an advance, a module that is neither compiled nor linked is what it was. -/
theorem Advances.origin {r r' : Registry} (advances : r.Advances r') {h : Handle} {m' : Registered}
    (found' : r'.get? h = some m') (moved : ¬ (m'.status = .compiled ∨ m'.status = .linked)) :
    ∃ m, r.get? h = some m ∧ m'.module = m.module ∧ m'.status = m.status ∧
      m'.dependencies = m.dependencies := by
  cases before : r.get? h with
  | none => exact absurd (advances.added before found') moved
  | some m =>
    obtain ⟨_, kept, advance⟩ := advances.kept before
    rw [found'] at kept
    cases kept
    by_cases compiled : m.status = .compiled
    · exact absurd (advance.moved compiled) moved
    · exact ⟨m, rfl, advance.module, advance.held compiled⟩

theorem Entries.advances {r r' : Registry} (entries : Entries r r') : r.Advances r' := by
  refine ⟨?_, ?_⟩
  · intro h m found
    obtain ⟨properties, found'⟩ := entries.kept found
    exact ⟨_, found', .of_same rfl rfl rfl⟩
  · intro h m absent found
    exact Or.inl (entries.added absent found).2.1

/-- A module that is marked, and put back or linked in the end, has advanced with all the others. -/
theorem Advances.around {r t : Registry} {h : Handle} {m : Registered} (found : r.get? h = some m)
    (compiled : m.status = .compiled) (within : (r.setStatus h .linking).Advances t)
    {change : Registered → Registered} (module : ∀ m, (change m).module = m.module)
    (status : ∀ m, (change m).status = .compiled ∨ (change m).status = .linked) :
    r.Advances (t.update h change) := by
  refine ⟨?_, ?_⟩
  · intro k n hk
    by_cases same : k = h
    · subst same
      rw [found] at hk
      cases hk
      have marked : (r.setStatus k .linking).get? k = some { m with status := .linking } := by
        unfold setStatus
        rw [get?_update, if_pos rfl, found]
        rfl
      obtain ⟨m', found', advance⟩ := within.kept marked
      refine ⟨change m', ?_, (module m').trans advance.module, ?_, fun _ => status m'⟩
      · rw [get?_update, if_pos rfl, found']
        rfl
      · intro past
        exact absurd compiled past
    · have marked : (r.setStatus h .linking).get? k = some n := by
        unfold setStatus
        rw [get?_update, if_neg same, hk]
      obtain ⟨n', found', advance⟩ := within.kept marked
      exact ⟨n', by rw [get?_update, if_neg same, found'], advance⟩
  · intro k n absent hk
    have same : k ≠ h := by
      rintro rfl
      rw [found] at absent
      cases absent
    rw [get?_update, if_neg same] at hk
    refine within.added ?_ hk
    unfold setStatus
    rw [get?_update, if_neg same, absent]

end Registry

namespace Linking

variable {σ ε : Type} {host : Host σ ε}

theorem require_entries (enters : host.Enters) {base request : String} {s t : Linking σ}
    {found : Except ε Handle} (run : require host base request s = (found, t)) :
    Registry.Entries s.registry t.registry := by
  obtain ⟨name, state, -, ⟨_, -, -, rfl⟩ | ⟨-, load⟩⟩ := require_eq run
  · exact .refl
  · have := enters name s.registry state
    rw [load] at this
    exact this

/-- Linking through a host that only enters modules and properties advances the registry, however
it ends. -/
theorem advances_cases (enters : host.Enters) :
    Cases host (fun _ s _ s' => s.registry.Advances s'.registry)
      (fun _ _ s _ s' => s.registry.Advances s'.registry) where
  unknown _ := .refl _
  settled _ _ := .refl _
  failed found compiled _ within :=
    .around found compiled within (fun _ => rfl) (fun _ => Or.inl rfl)
  done found compiled _ within :=
    .around found compiled within (fun _ => rfl) (fun _ => Or.inr rfl)
  nil := .refl _
  missing found := (require_entries enters found).advances
  blocked found _ visit := (require_entries enters found).advances.trans visit
  stopped found _ visit _ rest := ((require_entries enters found).advances.trans visit).trans rest
  cons found _ visit _ rest := ((require_entries enters found).advances.trans visit).trans rest

end Linking

end Esm
