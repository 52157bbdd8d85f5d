-- SUMMARY: More depth does not change what linking comes to, so it comes to one thing at most.
import Esm.Proofs.Registry.LinkInduction

/-!
# Depth

The depth allowed decides whether linking comes to anything, not what it comes to: an answer that is
reached within some depth is reached within any greater depth.
-/

namespace Esm.Linking

variable {σ ε : Type} {host : Host σ ε}

theorem linkRequests_mono {visit visit' : Handle → Linking σ → Outcome σ ε Unit}
    (le : ∀ {h s o}, visit h s = some o → visit' h s = some o) {base : String}
    {requests : List String} {s : Linking σ} {o : Except (LinkError ε) (List Handle) × Linking σ}
    (run : linkRequests host visit base requests s = some o) :
    linkRequests host visit' base requests s = some o := by
  induction requests generalizing s o with
  | nil => exact run
  | cons request requests ih =>
    simp only [linkRequests] at run ⊢
    cases hrequire : require host base request s with
    | mk found t =>
      rw [hrequire] at run
      cases found with
      | error cause => exact run
      | ok h =>
        cases hvisit : visit h t with
        | none => simp only [hvisit, reduceCtorEq] at run
        | some outcome =>
          obtain ⟨linked, u⟩ := outcome
          simp only [hvisit] at run
          simp only [le hvisit]
          cases linked with
          | error e => exact run
          | ok =>
            cases hrest : linkRequests host visit base requests u with
            | none => simp only [hrest, reduceCtorEq] at run
            | some outcome =>
              simp only [hrest] at run
              simp only [ih hrest]
              exact run

theorem link_succ {depth : Nat} {h : Handle} {s : Linking σ}
    {o : Except (LinkError ε) Unit × Linking σ} (run : link host depth h s = some o) :
    link host (depth + 1) h s = some o := by
  induction depth generalizing h s o with
  | zero =>
    unfold link at run
    split at run
    · rename_i absent
      unfold link
      simp only [absent]
      exact run
    · rename_i m found
      split at run
      · cases run
      · rename_i past
        simp only [link_settled found past]
        exact run
  | succ depth ih =>
    unfold link at run
    split at run
    · rename_i absent
      unfold link
      simp only [absent]
      exact run
    · rename_i m found
      split at run
      · rename_i compiled
        dsimp only at run
        cases hrequests : linkRequests host (link host depth) m.module.name
            m.module.interface.requests (s.mapRegistry (·.setStatus h .linking)) with
        | none => simp only [hrequests, reduceCtorEq] at run
        | some outcome =>
          have deeper := linkRequests_mono (fun call => ih call) hrequests
          unfold link
          simp only [found, if_pos compiled, deeper]
          simp only [hrequests] at run
          exact run
      · rename_i past
        simp only [link_settled found past]
        exact run

/-- An answer within some depth is the answer within any greater depth. -/
theorem link_mono {depth depth' : Nat} (le : depth ≤ depth') {h : Handle} {s : Linking σ}
    {o : Except (LinkError ε) Unit × Linking σ} (run : link host depth h s = some o) :
    link host depth' h s = some o := by
  induction le with
  | refl => exact run
  | step _ ih => exact link_succ ih

theorem linkRequests_deeper {depth depth' : Nat} (le : depth ≤ depth') {base : String}
    {requests : List String} {s : Linking σ} {o : Except (LinkError ε) (List Handle) × Linking σ}
    (run : linkRequests host (link host depth) base requests s = some o) :
    linkRequests host (link host depth') base requests s = some o :=
  linkRequests_mono (fun call => link_mono le call) run

/-- Linking a module comes to one thing at most. -/
theorem Links.unique {h : Handle} {s t t' : Linking σ} {result result' : Except (LinkError ε) Unit}
    (first : Links host h s result t) (second : Links host h s result' t') :
    result = result' ∧ t = t' := by
  obtain ⟨depth, run⟩ := first
  obtain ⟨depth', run'⟩ := second
  have same := (link_mono (Nat.le_max_left depth depth') run).symm.trans
    (link_mono (Nat.le_max_right depth depth') run')
  cases same
  exact ⟨rfl, rfl⟩

/-- Requests can be gone through if the module of the first one can be linked and, should that
succeed, the others can be gone through. -/
theorem exists_linksAll_cons {base request : String} {requests : List String} {h : Handle}
    {s t u : Linking σ} {result : Except (LinkError ε) Unit}
    (required : require host base request s = (.ok h, t))
    (visited : Links host h t result u)
    (rest : result = .ok () → ∃ results v, LinksAll host base requests u results v) :
    ∃ results v, LinksAll host base (request :: requests) s results v := by
  obtain ⟨depth, visited⟩ := visited
  cases result with
  | error e =>
    refine ⟨.error e, u, depth, ?_⟩
    simp only [linkRequests, required, visited]
  | ok =>
    obtain ⟨results, v, depth', rest⟩ := rest rfl
    have visited' := link_mono (Nat.le_max_left depth depth') visited
    have rest' := linkRequests_deeper (Nat.le_max_right depth depth') rest
    cases results with
    | error e =>
      exact ⟨.error e, v, max depth depth', linkRequests_stopped required visited' rest'⟩
    | ok hs => exact ⟨.ok (h :: hs), v, max depth depth', linkRequests_cons required visited' rest'⟩

end Esm.Linking
