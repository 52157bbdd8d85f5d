-- SUMMARY: A host that leaves a module behind when it fails links like one that takes the module back.
import Esm.Proofs.Registry.Log

/-!
# Modules left behind

A host may have registered a module already when it fails, and leave it behind. Linking ends with the
first failure, so this happens once at most, and the module is the last one of the registry. All else
comes to the same as with a host that registers nothing when it fails: the same answer, the same
questions, and the same modules but for the last.
-/

namespace Esm

variable {σ ε : Type}

namespace Registry

/-- The registry with a module behind the others that has been left there, if one has. -/
def leaving (r : Registry) : Option Module → Registry
  | none => r
  | some m => (r.register m).1

/-- What was there before is changed with the module left behind as it is without. -/
theorem leaving_update {r : Registry} {h : Handle} (known : h < r.count)
    (change : Registered → Registered) (left : Option Module) :
    (r.leaving left).update h change = (r.update h change).leaving left := by
  cases left with
  | none => rfl
  | some m => exact (add_update known change _).symm

theorem modules_leaving (r : Registry) (left : Option Module) :
    (r.leaving left).modules.map (·.module) = r.modules.map (·.module) ++ left.toList := by
  cases left with
  | none => exact (List.append_nil _).symm
  | some m => exact List.map_append

end Registry

/-- The host that registers nothing when it fails. -/
def Host.atomic (host : Host σ ε) : Host σ ε where
  ask := host.ask
  load name r state :=
    match host.load name r state with
    | (.error cause, _, state) => (.error cause, r, state)
    | (.ok h, r, state) => (.ok h, r, state)

/-- When the host fails to load a name, it leaves the module behind that `left` tells of the cause. -/
structure Host.Leaves (host : Host σ ε) (left : ε → Option Module) : Prop where
  failed : ∀ {name r state cause r' state'},
    host.load name r state = (.error cause, r', state') → r' = r.leaving (left cause)
  grows : ∀ {name r state h r' state'},
    host.load name r state = (.ok h, r', state') → r.count ≤ r'.count

variable {host : Host σ ε} {left : ε → Option Module}

/-- What is loaded, and how that fails, is the same where nothing is left behind. -/
theorem Host.Leaves.load (leaves : host.Leaves left) (name : String) (r : Registry) (state : σ) :
    host.load name r state =
      ((host.atomic.load name r state).1,
        (host.atomic.load name r state).2.1.leaving
          (match (host.atomic.load name r state).1 with
            | .error cause => left cause
            | .ok _ => none),
        (host.atomic.load name r state).2.2) := by
  unfold atomic
  cases call : host.load name r state with
  | mk result rest =>
    obtain ⟨r', state'⟩ := rest
    cases result with
    | ok h =>
      simp only [call]
      rfl
    | error cause =>
      simp only [call]
      rw [leaves.failed call]

theorem Host.atomic_logged (host : Host σ ε) : host.logged.atomic = host.atomic.logged := by
  have load : ∀ name r state,
      host.logged.atomic.load name r state = host.atomic.logged.load name r state := by
    intro name r state
    unfold atomic logged
    dsimp only
    cases call : host.load name r state.1 with
    | mk result rest =>
      cases result with
      | error cause => simp only [call]
      | ok h => simp only [call]
  exact congrArg (Host.mk host.logged.ask)
    (funext fun name => funext fun r => funext fun state => load name r state)

theorem Host.Leaves.logged (leaves : host.Leaves left) : host.logged.Leaves left := by
  refine ⟨?_, ?_⟩
  · intro name r state cause r' state' call
    unfold Host.logged at call
    cases inner : host.load name r state.1 with
    | mk result rest =>
      obtain ⟨r'', state''⟩ := rest
      simp only [inner, Prod.mk.injEq] at call
      obtain ⟨rfl, rfl, -⟩ := call
      exact leaves.failed inner
  · intro name r state h r' state' call
    unfold Host.logged at call
    cases inner : host.load name r state.1 with
    | mk result rest =>
      obtain ⟨r'', state''⟩ := rest
      simp only [inner, Prod.mk.injEq] at call
      obtain ⟨rfl, rfl, -⟩ := call
      exact leaves.grows inner

namespace Linking

open Registry

/-- The module that an answer leaves behind. -/
def leftBy {α : Type} (left : ε → Option Module) : Except (LinkError ε) α → Option Module
  | .error (.host cause) => left cause
  | _ => none

/-- What linking comes to, with the module behind the others that its answer leaves there. -/
def leaving {α : Type} (left : ε → Option Module) (o : Except (LinkError ε) α × Linking σ) :
    Except (LinkError ε) α × Linking σ :=
  (o.1, o.2.mapRegistry (·.leaving (leftBy left o.1)))

theorem leaving_ok {α : Type} (a : α) (s : Linking σ) :
    leaving left (.ok a, s) = (.ok a, s) := rfl

theorem require_atomic (leaves : host.Leaves left) (base request : String) (s : Linking σ) :
    require host base request s =
      ((require host.atomic base request s).1,
        (require host.atomic base request s).2.mapRegistry (·.leaving
          (match (require host.atomic base request s).1 with
            | .error cause => left cause
            | .ok _ => none))) := by
  cases ask : host.ask s.host base request with
  | mk name state =>
    cases found : s.registry.find? name with
    | some h =>
      rw [require_registered ask found,
        require_registered (show host.atomic.ask s.host base request = _ from ask) found]
      rfl
    | none =>
      cases inner : host.atomic.load name s.registry state with
      | mk result rest =>
        obtain ⟨r, state'⟩ := rest
        have load := leaves.load name s.registry state
        rw [inner] at load
        rw [require_loaded ask found load,
          require_loaded (show host.atomic.ask s.host base request = _ from ask) found inner]
        rfl

/-- One level of linking, if the same holds of what is linked for a request. -/
theorem linkRequests_atomic (leaves : host.Leaves left)
    {visit visit' : Handle → Linking σ → Outcome σ ε Unit}
    (visits : ∀ h s, visit h s = (visit' h s).map (leaving left)) (base : String)
    (requests : List String) (s : Linking σ) :
    linkRequests host visit base requests s =
      (linkRequests host.atomic visit' base requests s).map (leaving left) := by
  induction requests generalizing s with
  | nil => rfl
  | cons request requests ih =>
    unfold linkRequests
    rw [require_atomic leaves]
    cases require host.atomic base request s with
    | mk found t =>
      cases found with
      | error cause => rfl
      | ok h =>
        dsimp only
        have whole : t.mapRegistry (·.leaving none) = t := rfl
        rw [whole, visits]
        cases visit' h t with
        | none => rfl
        | some outcome =>
          obtain ⟨visited, u⟩ := outcome
          cases visited with
          | error e =>
            cases e with
            | unknownHandle k => rfl
            | host cause => rfl
          | ok =>
            simp only [Option.map_some, leaving_ok, ih]
            cases linkRequests host.atomic visit' base requests u with
            | none => rfl
            | some outcome =>
              obtain ⟨rest, v⟩ := outcome
              cases rest with
              | error e =>
                cases e with
                | unknownHandle k => rfl
                | host cause => rfl
              | ok hs => rfl

theorem atomic_kept (leaves : host.Leaves left) (h : Handle) :
    Kept host.atomic fun r => h < r.count := by
  refine ⟨?_, ?_, ?_⟩
  · intro name r state _ known
    unfold Host.atomic
    cases call : host.load name r state with
    | mk result rest =>
      obtain ⟨r', state'⟩ := rest
      cases result with
      | error cause =>
        simp only [call]
        exact known
      | ok k =>
        simp only [call]
        exact Nat.lt_of_lt_of_le known (leaves.grows call)
  · intro r k status known
    exact (count_update r k _).symm ▸ known
  · intro r k dependencies known
    exact (count_update r k _).symm ▸ known

/-- Linking a module through a host that leaves modules behind comes to what it comes to where nothing
is left behind, and leaves the module of its answer. -/
theorem link_atomic (leaves : host.Leaves left) (depth : Nat) (h : Handle) (s : Linking σ) :
    link host depth h s = (link host.atomic depth h s).map (leaving left) := by
  induction depth generalizing h s with
  | zero =>
    unfold link
    cases s.registry.get? h with
    | none => rfl
    | some m =>
      dsimp only
      split
      · rfl
      · rfl
  | succ depth ih =>
    unfold link
    cases found : s.registry.get? h with
    | none => rfl
    | some m =>
      dsimp only
      split
      · rw [linkRequests_atomic leaves ih]
        cases run : linkRequests host.atomic (link host.atomic depth) m.module.name
            m.module.interface.requests (s.mapRegistry (·.setStatus h .linking)) with
        | none => rfl
        | some outcome =>
          obtain ⟨result, t⟩ := outcome
          cases result with
          | ok dependencies => rfl
          | error e =>
            -- the module that is put back was there before
            have marked : h < (s.registry.setStatus h .linking).count := by
              unfold setStatus
              rw [count_update]
              exact get?_eq_some_lt found
            have known : h < t.registry.count :=
              (atomic_kept leaves h).linksAll ⟨depth, run⟩ marked
            cases e with
            | unknownHandle k => rfl
            | host cause =>
              have back := leaving_update known (fun m => { m with status := .compiled })
                (left cause)
              exact congrArg (fun r =>
                (some (.error (.host cause), Linking.mk r t.host) : Outcome σ ε Unit)) back
      · rfl

theorem evaluate_atomic (leaves : host.Leaves left) (depth : Nat) (h : Handle) (s : Linking σ) :
    evaluate host depth h s = (evaluate host.atomic depth h s).map (leaving left) := by
  unfold evaluate
  rw [link_atomic leaves]
  cases link host.atomic depth h s with
  | none => rfl
  | some outcome =>
    obtain ⟨result, t⟩ := outcome
    cases result with
    | error e => rfl
    | ok => rfl

/-- What succeeds has left nothing behind. -/
theorem eq_ok_of_map_leaving {α : Type} {o : Outcome σ ε α} {a : α} {t : Linking σ}
    (run : o.map (leaving left) = some (.ok a, t)) : o = some (.ok a, t) := by
  obtain ⟨⟨result, u⟩, rfl, same⟩ := Option.map_eq_some_iff.1 run
  cases result with
  | error e => cases same
  | ok b =>
    cases same
    rfl

theorem evaluate_eq_ok_atomic (leaves : host.Leaves left) {depth : Nat} {h : Handle}
    {s t : Linking σ} (run : evaluate host depth h s = some (.ok (), t)) :
    evaluate host.atomic depth h s = some (.ok (), t) :=
  eq_ok_of_map_leaving (evaluate_atomic leaves depth h s ▸ run)

theorem link_eq_ok_atomic (leaves : host.Leaves left) {depth : Nat} {h : Handle}
    {s t : Linking σ} (run : link host depth h s = some (.ok (), t)) :
    link host.atomic depth h s = some (.ok (), t) :=
  eq_ok_of_map_leaving (link_atomic leaves depth h s ▸ run)

end Linking

end Esm
