-- SUMMARY: Linking through two hosts that answer alike comes to the same.
import Esm.Proofs.Registry.LinkInduction

/-!
# Simulation

Two hosts may differ in their states and in what they register as long as linking cannot tell: it
looks at the modules and statuses of the registry and at what the hosts answer. From related states
linking through either of them then gives the same answer within the same depth, or none within it,
and leads to related states.
-/

namespace Esm.Linking

variable {σ τ ε : Type}

/-- Linking through `host` and through `host'` goes the same way from states that are related. -/
structure Simulates (host : Host σ ε) (host' : Host τ ε) (R : Linking σ → Linking τ → Prop) :
    Prop where
  get? : ∀ {s t}, R s t → ∀ h, (s.registry.get? h).map (fun m => (m.module, m.status)) =
    (t.registry.get? h).map fun m => (m.module, m.status)
  require : ∀ {s t}, R s t → ∀ base request, ∃ found s' t',
    require host base request s = (found, s') ∧
      require host' base request t = (found, t') ∧ R s' t'
  setStatus : ∀ {s t}, R s t → ∀ h status,
    R (s.mapRegistry (·.setStatus h status)) (t.mapRegistry (·.setStatus h status))
  linkedTo : ∀ {s t}, R s t → ∀ h dependencies,
    R (s.linkedTo h dependencies) (t.linkedTo h dependencies)

/-- The same answer and related states, or no answer from either. -/
inductive Alike {α : Type} (R : Linking σ → Linking τ → Prop) :
    Outcome σ ε α → Outcome τ ε α → Prop where
  | tooDeep : Alike R none none
  | ended {result : Except (LinkError ε) α} {s : Linking σ} {t : Linking τ} :
    R s t → Alike R (some (result, s)) (some (result, t))

variable {host : Host σ ε} {host' : Host τ ε} {R : Linking σ → Linking τ → Prop}

theorem Simulates.linkRequests (simulates : Simulates host host' R)
    {visit : Handle → Linking σ → Outcome σ ε Unit} {visit' : Handle → Linking τ → Outcome τ ε Unit}
    (alike : ∀ h {s t}, R s t → Alike R (visit h s) (visit' h t)) {base : String}
    {requests : List String} {s : Linking σ} {t : Linking τ} (related : R s t) :
    Alike R (linkRequests host visit base requests s)
      (linkRequests host' visit' base requests t) := by
  induction requests generalizing s t with
  | nil => exact .ended related
  | cons request requests ih =>
    obtain ⟨found, s', t', hrequire, hrequire', related'⟩ := simulates.require related base request
    unfold Linking.linkRequests
    rw [hrequire, hrequire']
    cases found with
    | error cause => exact .ended related'
    | ok h =>
      have visited := alike h related'
      dsimp only
      generalize visit h s' = o, visit' h t' = o' at visited ⊢
      cases visited with
      | tooDeep => exact .tooDeep
      | @ended result u u' later =>
        cases result with
        | error e => exact .ended later
        | ok =>
          have rest := ih later
          dsimp only
          generalize Linking.linkRequests host visit base requests u = o,
            Linking.linkRequests host' visit' base requests u' = o' at rest ⊢
          cases rest with
          | tooDeep => exact .tooDeep
          | @ended result v v' last =>
            cases result with
            | error e => exact .ended last
            | ok hs => exact .ended last

theorem Simulates.absent (simulates : Simulates host host' R) {s : Linking σ} {t : Linking τ}
    (related : R s t) {h : Handle} (absent : s.registry.get? h = none) :
    t.registry.get? h = none := by
  simpa [absent] using (simulates.get? related h).symm

theorem Simulates.found (simulates : Simulates host host' R) {s : Linking σ} {t : Linking τ}
    (related : R s t) {h : Handle} {m : Registered} (found : s.registry.get? h = some m) :
    ∃ m', t.registry.get? h = some m' ∧ m'.module = m.module ∧ m'.status = m.status := by
  simpa [found] using (simulates.get? related h).symm

/-- Linking a module through two hosts that answer alike comes to the same. -/
theorem Simulates.link (simulates : Simulates host host' R) {depth : Nat} {h : Handle}
    {s : Linking σ} {t : Linking τ} (related : R s t) :
    Alike R (link host depth h s) (link host' depth h t) := by
  induction depth generalizing h s t with
  | zero =>
    unfold Linking.link
    cases found : s.registry.get? h with
    | none =>
      rw [simulates.absent related found]
      exact .ended related
    | some m =>
      obtain ⟨m', found', -, status⟩ := simulates.found related found
      simp only [found', status]
      split
      · exact .tooDeep
      · exact .ended related
  | succ depth ih =>
    unfold Linking.link
    cases found : s.registry.get? h with
    | none =>
      rw [simulates.absent related found]
      exact .ended related
    | some m =>
      obtain ⟨m', found', module, status⟩ := simulates.found related found
      simp only [found', status, module]
      split
      · have requests : Alike R
            (Linking.linkRequests host (Linking.link host depth) m.module.name
              m.module.interface.requests (s.mapRegistry (·.setStatus h .linking)))
            (Linking.linkRequests host' (Linking.link host' depth) m.module.name
              m.module.interface.requests (t.mapRegistry (·.setStatus h .linking))) := by
          apply simulates.linkRequests
          · intro k s t related
            exact ih related
          · exact simulates.setStatus related h .linking
        generalize Linking.linkRequests host (Linking.link host depth) m.module.name
            m.module.interface.requests (s.mapRegistry (·.setStatus h .linking)) = o,
          Linking.linkRequests host' (Linking.link host' depth) m.module.name
            m.module.interface.requests (t.mapRegistry (·.setStatus h .linking)) = o' at requests ⊢
        cases requests with
        | tooDeep => exact .tooDeep
        | @ended result u u' related' =>
          cases result with
          | error e => exact .ended (simulates.setStatus related' h .compiled)
          | ok dependencies => exact .ended (simulates.linkedTo related' h dependencies)
      · exact .ended related

end Esm.Linking
