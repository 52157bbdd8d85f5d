-- SUMMARY: Dependency lists: complete once a module is linked, and closed under evaluation.
import Esm.Proofs.Registry.Advance

/-!
# Dependencies

A module has no dependencies until it is linked, and then one for each of its requests. This, and
that evaluated modules depend on evaluated ones only, holds at every moment, also while modules are
being linked.

That linked modules depend on linked ones only is another matter. It is kept by linking that
succeeds. Linking that fails puts modules back on which others, linked meanwhile on a cycle, may
depend by then.
-/

namespace Esm

/-- There is a dependency for each request. -/
def Registered.Resolved (m : Registered) : Prop :=
  m.dependencies.length = m.module.interface.requests.length

instance (m : Registered) : Decidable m.Resolved :=
  inferInstanceAs (Decidable (m.dependencies.length = m.module.interface.requests.length))

namespace Registry

/-- What holds of dependencies at every moment. -/
structure Sound (r : Registry) : Prop where
  unlinked : ∀ {h m}, r.get? h = some m → m.status = .compiled ∨ m.status = .linking →
    m.dependencies = []
  linked : ∀ {h m}, r.get? h = some m → m.status = .linked → m.Resolved
  evaluated : ∀ {h m}, r.get? h = some m → m.status = .evaluated →
    m.Resolved ∨ m.dependencies = []
  present : ∀ {h m d}, r.get? h = some m → d ∈ m.dependencies → ∃ n, r.get? d = some n
  closed : ∀ {h m d n}, r.get? h = some m → m.status = .evaluated → d ∈ m.dependencies →
    r.get? d = some n → n.status = .evaluated

/-- No module that is linked or evaluated depends on one that is merely compiled. -/
def Settled (r : Registry) : Prop :=
  ∀ ⦃h m d n⦄, r.get? h = some m → m.status = .linked ∨ m.status = .evaluated →
    d ∈ m.dependencies → r.get? d = some n → n.status ≠ .compiled

theorem Sound.empty : Sound .empty := ⟨nofun, nofun, nofun, nofun, nofun⟩

theorem Settled.empty : Settled .empty := by
  intro h m d n found
  cases found

-- ---------------------------------------------------------------------------
-- Entries
-- ---------------------------------------------------------------------------

/-- Behind entries a module is what it was, its properties apart, or has just been compiled. -/
theorem Entries.origin {r r' : Registry} (entries : Entries r r') {h : Handle} {m : Registered}
    (found : r'.get? h = some m) :
    (∃ m₀, r.get? h = some m₀ ∧ m.module = m₀.module ∧ m.status = m₀.status ∧
      m.dependencies = m₀.dependencies) ∨
    (r.get? h = none ∧ m.status = .compiled ∧ m.dependencies = []) := by
  cases before : r.get? h with
  | none =>
    obtain ⟨-, status, dependencies⟩ := entries.added before found
    exact Or.inr ⟨rfl, status, dependencies⟩
  | some m₀ =>
    obtain ⟨properties, kept⟩ := entries.kept before
    rw [found] at kept
    cases kept
    exact Or.inl ⟨m₀, rfl, rfl, rfl, rfl⟩

theorem Sound.entries {r r' : Registry} (sound : r.Sound) (entries : Entries r r') : r'.Sound := by
  refine ⟨?_, ?_, ?_, ?_, ?_⟩
  · intro h m found status
    rcases entries.origin found with ⟨m₀, found₀, -, hs, hd⟩ | ⟨-, -, hd⟩
    · rw [hs] at status
      rw [hd]
      exact sound.unlinked found₀ status
    · exact hd
  · intro h m found status
    rcases entries.origin found with ⟨m₀, found₀, hm, hs, hd⟩ | ⟨-, hs, -⟩
    · have resolved := sound.linked found₀ (hs ▸ status)
      unfold Registered.Resolved
      rw [hm, hd]
      exact resolved
    · rw [hs] at status
      cases status
  · intro h m found status
    rcases entries.origin found with ⟨m₀, found₀, hm, hs, hd⟩ | ⟨-, -, hd⟩
    · have resolved := sound.evaluated found₀ (hs ▸ status)
      unfold Registered.Resolved
      rw [hm, hd]
      exact resolved
    · exact Or.inr hd
  · intro h m d found mem
    rcases entries.origin found with ⟨m₀, found₀, -, -, hd⟩ | ⟨-, -, hd⟩
    · obtain ⟨n, hn⟩ := sound.present found₀ (hd ▸ mem)
      obtain ⟨properties, hn'⟩ := entries.kept hn
      exact ⟨_, hn'⟩
    · rw [hd] at mem
      cases mem
  · intro h m d n found status mem hn
    rcases entries.origin found with ⟨m₀, found₀, -, hs, hd⟩ | ⟨-, hs, -⟩
    · obtain ⟨n₀, hn₀⟩ := sound.present found₀ (hd ▸ mem)
      have evaluated := sound.closed found₀ (hs ▸ status) (hd ▸ mem) hn₀
      obtain ⟨properties, hn'⟩ := entries.kept hn₀
      rw [hn] at hn'
      cases hn'
      exact evaluated
    · rw [hs] at status
      cases status

theorem Settled.entries {r r' : Registry} (settled : r.Settled) (sound : r.Sound)
    (entries : Entries r r') : r'.Settled := by
  intro h m d n found status mem hn
  rcases entries.origin found with ⟨m₀, found₀, -, hs, hd⟩ | ⟨-, -, hd⟩
  · obtain ⟨n₀, hn₀⟩ := sound.present found₀ (hd ▸ mem)
    have past := settled found₀ (hs ▸ status) (hd ▸ mem) hn₀
    obtain ⟨properties, hn'⟩ := entries.kept hn₀
    rw [hn] at hn'
    cases hn'
    exact past
  · rw [hd] at mem
    cases mem

-- ---------------------------------------------------------------------------
-- Changing one module
-- ---------------------------------------------------------------------------

/-- The module at a handle that is changed, and every other module, after the change. -/
theorem get?_update_eq_some {r : Registry} {h k : Handle} {change : Registered → Registered}
    {m n : Registered} (found : r.get? h = some m) (after : (r.update h change).get? k = some n) :
    (k = h ∧ n = change m) ∨ (k ≠ h ∧ r.get? k = some n) := by
  rw [get?_update] at after
  by_cases same : k = h
  · subst same
    rw [if_pos rfl, found] at after
    cases after
    exact Or.inl ⟨rfl, rfl⟩
  · rw [if_neg same] at after
    exact Or.inr ⟨same, after⟩

theorem get?_update_present {r : Registry} {h k : Handle} {change : Registered → Registered}
    (found : ∃ n, r.get? k = some n) : ∃ n, (r.update h change).get? k = some n := by
  obtain ⟨n, hn⟩ := found
  rw [get?_update, hn]
  split
  · exact ⟨change n, rfl⟩
  · exact ⟨n, rfl⟩

/-- A module that is not evaluated may be changed into any other such module with dependencies of
the right number. -/
theorem Sound.update {r : Registry} (sound : r.Sound) {h : Handle} {m : Registered}
    {change : Registered → Registered} (found : r.get? h = some m) (before : m.status ≠ .evaluated)
    (after : (change m).status ≠ .evaluated)
    (unlinked : (change m).status = .compiled ∨ (change m).status = .linking →
      (change m).dependencies = [])
    (linked : (change m).status = .linked → (change m).Resolved)
    (present : ∀ d ∈ (change m).dependencies, ∃ n, r.get? d = some n) :
    (r.update h change).Sound := by
  refine ⟨?_, ?_, ?_, ?_, ?_⟩
  · intro k n hk status
    rcases get?_update_eq_some found hk with ⟨rfl, rfl⟩ | ⟨-, hk⟩
    · exact unlinked status
    · exact sound.unlinked hk status
  · intro k n hk status
    rcases get?_update_eq_some found hk with ⟨rfl, rfl⟩ | ⟨-, hk⟩
    · exact linked status
    · exact sound.linked hk status
  · intro k n hk status
    rcases get?_update_eq_some found hk with ⟨rfl, rfl⟩ | ⟨-, hk⟩
    · exact absurd status after
    · exact sound.evaluated hk status
  · intro k n d hk mem
    rcases get?_update_eq_some found hk with ⟨rfl, rfl⟩ | ⟨-, hk⟩
    · exact get?_update_present (present d mem)
    · exact get?_update_present (sound.present hk mem)
  · intro k n d n' hk status mem hd
    rcases get?_update_eq_some found hk with ⟨rfl, rfl⟩ | ⟨-, hk'⟩
    · exact absurd status after
    · rcases get?_update_eq_some found hd with ⟨rfl, rfl⟩ | ⟨-, hd'⟩
      · exact absurd (sound.closed hk' status mem found) before
      · exact sound.closed hk' status mem hd'

/-- Marking a module that is not linked yet as compiled or as being linked. -/
theorem Sound.setStatus {r : Registry} (sound : r.Sound) {h : Handle} {m : Registered}
    {status : Status} (found : r.get? h = some m)
    (before : m.status = .compiled ∨ m.status = .linking)
    (after : status = .compiled ∨ status = .linking) : (r.setStatus h status).Sound := by
  have none := sound.unlinked found before
  refine sound.update found ?_ ?_ (fun _ => none) ?_ ?_
  · rcases before with h | h <;> rw [h] <;> exact nofun
  · rcases after with rfl | rfl <;> exact nofun
  · rcases after with rfl | rfl <;> exact nofun
  · intro d mem
    simp only [none] at mem
    cases mem

end Registry

-- ---------------------------------------------------------------------------
-- Linking
-- ---------------------------------------------------------------------------

namespace Linking

variable {σ ε : Type} {host : Host σ ε}

/-- The module of a handle is past compiled. -/
def Past (s : Linking σ) (h : Handle) : Prop :=
  ∃ m, s.registry.get? h = some m ∧ m.status ≠ .compiled

theorem Past.advances {s s' : Linking σ} {h : Handle} (past : s.Past h)
    (advances : s.registry.Advances s'.registry) : s'.Past h := by
  obtain ⟨m, found, status⟩ := past
  obtain ⟨m', found', advance⟩ := advances.kept found
  exact ⟨m', found', (advance.held status).1 ▸ status⟩

/-- A module that is marked is still marked once its requests have been gone through. -/
theorem marked_advances {s t : Linking σ} {h : Handle} {m : Registered}
    (found : s.registry.get? h = some m) (advances : (s.marked h).registry.Advances t.registry) :
    ∃ m', t.registry.get? h = some m' ∧ m'.module = m.module ∧ m'.status = .linking := by
  have marked : (s.marked h).registry.get? h = some { m with status := .linking } := by
    simp only [Linking.marked, mapRegistry, Registry.setStatus, Registry.get?_update, found, if_true]
    rfl
  obtain ⟨m', found', advance⟩ := advances.kept marked
  exact ⟨m', found', advance.module, (advance.held nofun).1⟩

/-- What linking keeps, and what it comes to if it succeeds: a module is then past compiled, there
is a dependency for each request, all of them past compiled, and no module that is linked depends on
one that is not, if that was so before. -/
theorem sound_cases (enters : host.Enters) :
    Cases host
      (fun h s result s' => s.registry.Sound → s'.registry.Sound ∧
        (result = .ok () → s'.Past h ∧ (s.registry.Settled → s'.registry.Settled)))
      (fun _ requests s result s' => s.registry.Sound → s'.registry.Sound ∧
        ∀ hs, result = .ok hs → hs.length = requests.length ∧ (∀ d ∈ hs, s'.Past d) ∧
          (s.registry.Settled → s'.registry.Settled)) := by
  refine ⟨?_, ?_, ?_, ?_, ?_, ?_, ?_, ?_, ?_⟩
  · -- unknown
    intro h s absent sound
    exact ⟨sound, nofun⟩
  · -- settled
    intro h s m found past sound
    exact ⟨sound, fun _ => ⟨⟨m, found, past⟩, id⟩⟩
  · -- failed
    intro h s m e t found compiled run within sound
    have advances := (advances_cases enters).linksAll run
    obtain ⟨m', found', -, linking⟩ := marked_advances found advances
    obtain ⟨sound', -⟩ := within (sound.setStatus found (Or.inl compiled) (Or.inr rfl))
    exact ⟨sound'.setStatus found' (Or.inr linking) (Or.inl rfl), nofun⟩
  · -- done
    intro h s m dependencies t found compiled run within sound
    have advances := (advances_cases enters).linksAll run
    obtain ⟨m', found', module', linking⟩ := marked_advances found advances
    obtain ⟨sound', answer⟩ := within (sound.setStatus found (Or.inl compiled) (Or.inr rfl))
    obtain ⟨length, past, settle⟩ := answer dependencies rfl
    refine ⟨?_, fun _ => ⟨?_, ?_⟩⟩
    · refine sound'.update found' ?_ nofun ?_ ?_ ?_
      · rw [linking]
        exact nofun
      · rintro (status | status) <;> cases status
      · intro _
        unfold Registered.Resolved
        rw [module']
        exact length
      · intro d mem
        obtain ⟨n, hn, -⟩ := past d mem
        exact ⟨n, hn⟩
    · refine ⟨{ m' with dependencies := dependencies, status := .linked }, ?_, nofun⟩
      simp only [Linking.linkedTo, mapRegistry, Registry.get?_update, found', if_true]
      rfl
    · intro settled
      have settled' : t.registry.Settled := by
        apply settle
        intro k n d n' hk status mem hd
        rcases Registry.get?_update_eq_some found hk with ⟨rfl, rfl⟩ | ⟨-, hk'⟩
        · rcases status with status | status <;> cases status
        · rcases Registry.get?_update_eq_some found hd with ⟨rfl, rfl⟩ | ⟨-, hd'⟩
          · exact nofun
          · exact settled hk' status mem hd'
      intro k n d n' hk status mem hd
      rcases Registry.get?_update_eq_some found' hd with ⟨rfl, rfl⟩ | ⟨-, hd'⟩
      · exact nofun
      · rcases Registry.get?_update_eq_some found' hk with ⟨rfl, rfl⟩ | ⟨-, hk'⟩
        · obtain ⟨n₀, hn₀, status₀⟩ := past d mem
          rw [hd'] at hn₀
          cases hn₀
          exact status₀
        · exact settled' hk' status mem hd'
  · -- nil
    intro base s sound
    refine ⟨sound, ?_⟩
    rintro hs heq
    cases heq
    exact ⟨rfl, nofun, id⟩
  · -- missing
    intro base request requests s cause t required sound
    exact ⟨sound.entries (require_entries enters required), nofun⟩
  · -- blocked
    intro base request requests s h t e u required run visit sound
    obtain ⟨sound', -⟩ := visit (sound.entries (require_entries enters required))
    exact ⟨sound', nofun⟩
  · -- stopped
    intro base request requests s h t u e v required run visit runs rest sound
    obtain ⟨sound', -⟩ := visit (sound.entries (require_entries enters required))
    obtain ⟨sound'', -⟩ := rest sound'
    exact ⟨sound'', nofun⟩
  · -- cons
    intro base request requests s h t u hs v required run visit runs rest sound
    have entries := require_entries enters required
    obtain ⟨sound', answer⟩ := visit (sound.entries entries)
    obtain ⟨past, settle⟩ := answer rfl
    obtain ⟨sound'', answers⟩ := rest sound'
    obtain ⟨length, pasts, settles⟩ := answers hs rfl
    refine ⟨sound'', ?_⟩
    rintro _ heq
    cases heq
    refine ⟨congrArg Nat.succ length, ?_,
      fun settled => settles (settle (settled.entries sound entries))⟩
    intro d mem
    rcases List.mem_cons.1 mem with rfl | mem
    · exact past.advances ((advances_cases enters).linksAll runs)
    · exact pasts d mem

end Linking

end Esm
