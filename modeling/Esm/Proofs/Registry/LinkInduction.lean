-- SUMMARY: Induction over the linking of a module, one case for each way in which it can go on or end.
import Esm.Registry.Evaluate

/-!
# Induction over linking

Linking a module and linking a list of requests call each other. A property of both is proved once
for every way in which a call can go on or end; the depth allowed plays no part in it.
-/

namespace Esm.Linking

variable {σ ε : Type}

/-- The state in which a module is marked as being linked. -/
def marked (s : Linking σ) (h : Handle) : Linking σ := s.mapRegistry (·.setStatus h .linking)

/-- The state in which a module is put back, because one of its requests failed. -/
def putBack (s : Linking σ) (h : Handle) : Linking σ := s.mapRegistry (·.setStatus h .compiled)

/-- The state in which a module is linked to the modules that its requests led to. -/
def linkedTo (s : Linking σ) (h : Handle) (dependencies : List Handle) : Linking σ :=
  s.mapRegistry fun r => r.update h fun m =>
    { m with dependencies := dependencies, status := .linked }

/-- Linking the module `h` leads from `s` to `s'`, if the depth allowed suffices. -/
def Links (host : Host σ ε) (h : Handle) (s : Linking σ) (result : Except (LinkError ε) Unit)
    (s' : Linking σ) : Prop :=
  ∃ depth, link host depth h s = some (result, s')

/-- Linking requests of the module `base` leads from `s` to `s'`, if the depth allowed suffices. -/
def LinksAll (host : Host σ ε) (base : String) (requests : List String) (s : Linking σ)
    (result : Except (LinkError ε) (List Handle)) (s' : Linking σ) : Prop :=
  ∃ depth, linkRequests host (link host depth) base requests s = some (result, s')

/-- A module that is not merely compiled is left alone. -/
theorem link_settled {host : Host σ ε} {depth : Nat} {h : Handle} {s : Linking σ} {m : Registered}
    (found : s.registry.get? h = some m) (past : m.status ≠ .compiled) :
    link host depth h s = some (.ok (), s) := by
  unfold link
  simp only [found, if_neg past]

/-- A compiled module is linked once its requests are. -/
theorem link_done {host : Host σ ε} {depth : Nat} {h : Handle} {s t : Linking σ} {m : Registered}
    {dependencies : List Handle} (found : s.registry.get? h = some m)
    (compiled : m.status = .compiled)
    (requests : linkRequests host (link host depth) m.module.name m.module.interface.requests
      (s.marked h) = some (.ok dependencies, t)) :
    link host (depth + 1) h s = some (.ok (), t.linkedTo h dependencies) := by
  unfold marked at requests
  unfold link
  simp only [found, if_pos compiled, requests]
  rfl

/-- A compiled module is put back if its requests fail. -/
theorem link_failed {host : Host σ ε} {depth : Nat} {h : Handle} {s t : Linking σ} {m : Registered}
    {e : LinkError ε} (found : s.registry.get? h = some m) (compiled : m.status = .compiled)
    (requests : linkRequests host (link host depth) m.module.name m.module.interface.requests
      (s.marked h) = some (.error e, t)) :
    link host (depth + 1) h s = some (.error e, t.putBack h) := by
  unfold marked at requests
  unfold link
  simp only [found, if_pos compiled, requests]
  rfl

theorem link_unknown {host : Host σ ε} {depth : Nat} {h : Handle} {s : Linking σ}
    (absent : s.registry.get? h = none) :
    link host depth h s = some (.error (.unknownHandle h), s) := by
  unfold link
  simp only [absent]

/-- Requests are linked once the module of the first is, and then the others. -/
theorem linkRequests_cons {host : Host σ ε} {visit : Handle → Linking σ → Outcome σ ε Unit}
    {base request : String} {requests : List String} {s t u v : Linking σ} {h : Handle}
    {hs : List Handle} (required : require host base request s = (.ok h, t))
    (visited : visit h t = some (.ok (), u))
    (rest : linkRequests host visit base requests u = some (.ok hs, v)) :
    linkRequests host visit base (request :: requests) s = some (.ok (h :: hs), v) := by
  simp only [linkRequests, required, visited, rest]

/-- Requests are gone through up to the first that cannot be had. -/
theorem linkRequests_missing {host : Host σ ε} {visit : Handle → Linking σ → Outcome σ ε Unit}
    {base request : String} {requests : List String} {s t : Linking σ} {cause : ε}
    (required : require host base request s = (.error cause, t)) :
    linkRequests host visit base (request :: requests) s = some (.error (.host cause), t) := by
  simp only [linkRequests, required]

/-- If one of the others fails after the first is linked, nothing more comes of the first. -/
theorem linkRequests_stopped {host : Host σ ε} {visit : Handle → Linking σ → Outcome σ ε Unit}
    {base request : String} {requests : List String} {s t u v : Linking σ} {h : Handle}
    {e : LinkError ε} (required : require host base request s = (.ok h, t))
    (visited : visit h t = some (.ok (), u))
    (rest : linkRequests host visit base requests u = some (.error e, v)) :
    linkRequests host visit base (request :: requests) s = some (.error e, v) := by
  simp only [linkRequests, required, visited, rest]

/-- A compiled module without requests is linked and evaluated at once. -/
theorem evaluate_leaf {host : Host σ ε} {h : Handle} {s : Linking σ} {m : Registered} (depth : Nat)
    (found : s.registry.get? h = some m) (compiled : m.status = .compiled)
    (leaf : m.module.interface.requests = []) :
    evaluate host (depth + 1) h s =
      some (.ok (), ((s.marked h).linkedTo h []).mapRegistry (·.setStatus h .evaluated)) := by
  have requests : linkRequests host (link host depth) m.module.name m.module.interface.requests
      (s.marked h) = some (.ok [], s.marked h) := by
    rw [leaf]
    rfl
  have linked : ((s.marked h).linkedTo h []).registry.get? h =
      some { m with dependencies := [], status := .linked } := by
    show ((s.registry.update h _).update h _).get? h = _
    simp only [Registry.get?_update, if_true, found, Option.map_some]
  have marks : ((s.marked h).linkedTo h []).registry.markEvaluated [h] = _ :=
    (Registry.markEvaluated_enter linked Status.noConfusion []).trans (Registry.markEvaluated_nil _)
  unfold evaluate
  rw [link_done found compiled requests]
  exact congrArg (fun r => some (Except.ok (), Linking.mk r s.host)) marks

/-- What has to be shown so that `V` holds of every linking of a module and `Q` of every linking of
the requests of a module. -/
structure Cases (host : Host σ ε)
    (V : Handle → Linking σ → Except (LinkError ε) Unit → Linking σ → Prop)
    (Q : String → List String → Linking σ → Except (LinkError ε) (List Handle) → Linking σ → Prop) :
    Prop where
  unknown : ∀ {h s}, s.registry.get? h = none → V h s (.error (.unknownHandle h)) s
  settled : ∀ {h s m}, s.registry.get? h = some m → m.status ≠ .compiled → V h s (.ok ()) s
  failed : ∀ {h s m e t}, s.registry.get? h = some m → m.status = .compiled →
    LinksAll host m.module.name m.module.interface.requests (s.marked h) (.error e) t →
    Q m.module.name m.module.interface.requests (s.marked h) (.error e) t →
    V h s (.error e) (t.putBack h)
  done : ∀ {h s m dependencies t}, s.registry.get? h = some m → m.status = .compiled →
    LinksAll host m.module.name m.module.interface.requests (s.marked h) (.ok dependencies) t →
    Q m.module.name m.module.interface.requests (s.marked h) (.ok dependencies) t →
    V h s (.ok ()) (t.linkedTo h dependencies)
  nil : ∀ {base s}, Q base [] s (.ok []) s
  missing : ∀ {base request requests s cause t},
    require host base request s = (.error cause, t) →
    Q base (request :: requests) s (.error (.host cause)) t
  blocked : ∀ {base request requests s h t e u},
    require host base request s = (.ok h, t) →
    Links host h t (.error e) u → V h t (.error e) u →
    Q base (request :: requests) s (.error e) u
  stopped : ∀ {base request requests s h t u e v},
    require host base request s = (.ok h, t) →
    Links host h t (.ok ()) u → V h t (.ok ()) u →
    LinksAll host base requests u (.error e) v → Q base requests u (.error e) v →
    Q base (request :: requests) s (.error e) v
  cons : ∀ {base request requests s h t u hs v},
    require host base request s = (.ok h, t) →
    Links host h t (.ok ()) u → V h t (.ok ()) u →
    LinksAll host base requests u (.ok hs) v → Q base requests u (.ok hs) v →
    Q base (request :: requests) s (.ok (h :: hs)) v

variable {host : Host σ ε} {V : Handle → Linking σ → Except (LinkError ε) Unit → Linking σ → Prop}
  {Q : String → List String → Linking σ → Except (LinkError ε) (List Handle) → Linking σ → Prop}

/-- One level of the induction: if every linking within `depth` has the property, then so has every
linking of requests through it. -/
private theorem Cases.requests_within (cases : Cases host V Q) {depth : Nat}
    (visited : ∀ {h s result s'}, link host depth h s = some (result, s') → V h s result s')
    {base : String} {requests : List String} {s s' : Linking σ}
    {result : Except (LinkError ε) (List Handle)}
    (run : linkRequests host (Linking.link host depth) base requests s = some (result, s')) :
    Q base requests s result s' := by
  induction requests generalizing s s' result with
  | nil =>
    simp only [linkRequests, Option.some.injEq, Prod.mk.injEq] at run
    obtain ⟨rfl, rfl⟩ := run
    exact cases.nil
  | cons request requests ih =>
    simp only [linkRequests] at run
    cases hrequire : require host base request s with
    | mk found t =>
      rw [hrequire] at run
      cases found with
      | error cause =>
        simp only [Option.some.injEq, Prod.mk.injEq] at run
        obtain ⟨rfl, rfl⟩ := run
        exact cases.missing hrequire
      | ok h =>
        cases hvisit : Linking.link host depth h t with
        | none => simp only [hvisit, reduceCtorEq] at run
        | some outcome =>
          obtain ⟨linked, u⟩ := outcome
          cases linked with
          | error e =>
            simp only [hvisit, Option.some.injEq, Prod.mk.injEq] at run
            obtain ⟨rfl, rfl⟩ := run
            exact cases.blocked hrequire ⟨depth, hvisit⟩ (visited hvisit)
          | ok =>
            simp only [hvisit] at run
            cases hrest : linkRequests host (Linking.link host depth) base requests u with
            | none => simp only [hrest, reduceCtorEq] at run
            | some outcome =>
              obtain ⟨rest, v⟩ := outcome
              cases rest with
              | error e =>
                simp only [hrest, Option.some.injEq, Prod.mk.injEq] at run
                obtain ⟨rfl, rfl⟩ := run
                exact cases.stopped hrequire ⟨depth, hvisit⟩ (visited hvisit) ⟨depth, hrest⟩
                  (ih hrest)
              | ok hs =>
                simp only [hrest, Option.some.injEq, Prod.mk.injEq] at run
                obtain ⟨rfl, rfl⟩ := run
                exact cases.cons hrequire ⟨depth, hvisit⟩ (visited hvisit) ⟨depth, hrest⟩ (ih hrest)

private theorem Cases.link_within (cases : Cases host V Q) {depth : Nat} {h : Handle}
    {s s' : Linking σ} {result : Except (LinkError ε) Unit}
    (run : link host depth h s = some (result, s')) : V h s result s' := by
  induction depth generalizing h s s' result with
  | zero =>
    unfold Linking.link at run
    split at run
    · rename_i absent
      cases run
      exact cases.unknown absent
    · rename_i m found
      split at run
      · cases run
      · rename_i hstatus
        cases run
        exact cases.settled found hstatus
  | succ depth ih =>
    unfold Linking.link at run
    split at run
    · rename_i absent
      cases run
      exact cases.unknown absent
    · rename_i m found
      split at run
      · rename_i hstatus
        dsimp only at run
        split at run
        · cases run
        · rename_i e t hrequests
          cases run
          exact cases.failed found hstatus ⟨depth, hrequests⟩ (cases.requests_within ih hrequests)
        · rename_i dependencies t hrequests
          cases run
          exact cases.done found hstatus ⟨depth, hrequests⟩ (cases.requests_within ih hrequests)
      · rename_i hstatus
        cases run
        exact cases.settled found hstatus

/-- A property that every case keeps holds of every linking of a module. -/
theorem Cases.links (cases : Cases host V Q) {h : Handle} {s s' : Linking σ}
    {result : Except (LinkError ε) Unit} (run : Links host h s result s') : V h s result s' := by
  obtain ⟨depth, run⟩ := run
  exact cases.link_within run

/-- A property that every case keeps holds of every linking of requests. -/
theorem Cases.linksAll (cases : Cases host V Q) {base : String} {requests : List String}
    {s s' : Linking σ} {result : Except (LinkError ε) (List Handle)}
    (run : LinksAll host base requests s result s') : Q base requests s result s' := by
  obtain ⟨depth, run⟩ := run
  exact cases.requests_within cases.link_within run

/-- Linking the first of some requests fails, or leads on to the others. -/
theorem LinksAll.first {base request : String} {requests : List String} {s s' : Linking σ}
    {result : Except (LinkError ε) (List Handle)}
    (run : LinksAll host base (request :: requests) s result s') :
    (∃ cause, require host base request s = (.error cause, s') ∧
      result = .error (.host cause)) ∨
    ∃ h t, require host base request s = (.ok h, t) ∧
      ((∃ e, Links host h t (.error e) s' ∧ result = .error e) ∨
        ∃ u rest, Links host h t (.ok ()) u ∧ LinksAll host base requests u rest s' ∧
          result = rest.map (h :: ·)) := by
  obtain ⟨depth, run⟩ := run
  simp only [linkRequests] at run
  split at run
  · rename_i cause t missing
    cases run
    exact Or.inl ⟨cause, missing, rfl⟩
  · rename_i h t required
    refine Or.inr ⟨h, t, required, ?_⟩
    split at run
    · cases run
    · rename_i e u visited
      cases run
      exact Or.inl ⟨e, ⟨depth, visited⟩, rfl⟩
    · rename_i u visited
      split at run
      · cases run
      · rename_i e v stopped
        cases run
        exact Or.inr ⟨u, .error e, ⟨depth, visited⟩, ⟨depth, stopped⟩, rfl⟩
      · rename_i hs v done
        cases run
        exact Or.inr ⟨u, .ok hs, ⟨depth, visited⟩, ⟨depth, done⟩, rfl⟩

/-- What the registry has become once a request's module is at hand: nothing happened to it, or the
host was asked to load a name that was not registered. -/
theorem require_eq {base request : String} {s t : Linking σ} {found : Except ε Handle}
    (run : require host base request s = (found, t)) :
    ∃ name state, host.ask s.host base request = (name, state) ∧
      ((∃ h, s.registry.find? name = some h ∧ found = .ok h ∧ t = ⟨s.registry, state⟩) ∨
        (s.registry.find? name = none ∧
          host.load name s.registry state = (found, t.registry, t.host))) := by
  refine ⟨_, _, rfl, ?_⟩
  unfold require at run
  dsimp only at run
  split at run
  · rename_i h hfind
    cases run
    exact Or.inl ⟨h, hfind, rfl, rfl⟩
  · rename_i hfind
    cases run
    exact Or.inr ⟨hfind, rfl⟩

/-- A request for a registered module. -/
theorem require_registered {base request name : String} {s : Linking σ} {state : σ} {h : Handle}
    (ask : host.ask s.host base request = (name, state)) (found : s.registry.find? name = some h) :
    require host base request s = (.ok h, ⟨s.registry, state⟩) := by
  unfold require
  simp only [ask, found]

/-- A request for a module that is not registered. -/
theorem require_loaded {base request name : String} {s : Linking σ} {state : σ}
    (ask : host.ask s.host base request = (name, state)) (absent : s.registry.find? name = none)
    {found : Except ε Handle} {r : Registry} {state' : σ}
    (load : host.load name s.registry state = (found, r, state')) :
    require host base request s = (found, ⟨r, state'⟩) := by
  unfold require
  simp only [ask, absent, load]

/-- What has to be shown so that linking and evaluation keep a property of registries. Only names
that are not registered are ever loaded. -/
structure Kept (host : Host σ ε) (P : Registry → Prop) : Prop where
  load : ∀ name r state, r.find? name = none → P r → P (host.load name r state).2.1
  status : ∀ r h status, P r → P (r.setStatus h status)
  bind : ∀ r h dependencies, P r → P (r.update h fun m =>
    { m with dependencies := dependencies, status := .linked })

/-- Linking keeps such a property, whatever is linked and however it ends. -/
theorem Kept.cases {P : Registry → Prop} (kept : Kept host P) :
    Cases host (fun _ s _ s' => P s.registry → P s'.registry)
      (fun _ _ s _ s' => P s.registry → P s'.registry) := by
  have hrequire : ∀ {base request s t found}, require host base request s = (found, t) →
      P s.registry → P t.registry := by
    intro base request s t found run before
    obtain ⟨name, state, -, ⟨_, -, -, rfl⟩ | ⟨absent, hload⟩⟩ := require_eq run
    · exact before
    · have := kept.load name s.registry state absent before
      rw [hload] at this
      exact this
  exact {
    unknown := fun _ before => before
    settled := fun _ _ before => before
    failed := fun _ _ _ rest before => kept.status _ _ _ (rest (kept.status _ _ _ before))
    done := fun _ _ _ rest before => kept.bind _ _ _ (rest (kept.status _ _ _ before))
    nil := fun before => before
    missing := fun found before => hrequire found before
    blocked := fun found _ visit before => visit (hrequire found before)
    stopped := fun found _ visit _ rest before => rest (visit (hrequire found before))
    cons := fun found _ visit _ rest before => rest (visit (hrequire found before)) }

theorem Kept.link {P : Registry → Prop} (kept : Kept host P) {h : Handle} {s s' : Linking σ}
    {result : Except (LinkError ε) Unit} (run : Links host h s result s') (before : P s.registry) :
    P s'.registry :=
  kept.cases.links run before

theorem Kept.linksAll {P : Registry → Prop} (kept : Kept host P) {base : String}
    {requests : List String} {s s' : Linking σ} {result : Except (LinkError ε) (List Handle)}
    (run : LinksAll host base requests s result s') (before : P s.registry) : P s'.registry :=
  kept.cases.linksAll run before

/-- Evaluating a module links it and, if that succeeds, marks it with all it depends on. -/
theorem evaluate_eq {depth : Nat} {h : Handle} {s s' : Linking σ}
    {result : Except (LinkError ε) Unit} (run : evaluate host depth h s = some (result, s')) :
    ∃ t, link host depth h s = some (result, t) ∧
      s' = if result.isOk then t.mapRegistry (·.markEvaluated [h]) else t := by
  unfold evaluate at run
  cases hlink : link host depth h s with
  | none => simp only [hlink, reduceCtorEq] at run
  | some outcome =>
    obtain ⟨linked, t⟩ := outcome
    cases linked with
    | error e =>
      simp only [hlink, Option.some.injEq, Prod.mk.injEq] at run
      obtain ⟨rfl, rfl⟩ := run
      exact ⟨t, rfl, rfl⟩
    | ok =>
      simp only [hlink, Option.some.injEq, Prod.mk.injEq] at run
      obtain ⟨rfl, rfl⟩ := run
      exact ⟨t, rfl, rfl⟩

/-- Evaluation keeps such a property, however it ends. -/
theorem Kept.evaluate {P : Registry → Prop} (kept : Kept host P) {depth : Nat} {h : Handle}
    {s s' : Linking σ} {result : Except (LinkError ε) Unit}
    (run : Linking.evaluate host depth h s = some (result, s')) (before : P s.registry) :
    P s'.registry := by
  have marks : ∀ {r : Registry} {pending : List Handle}, P r → P (r.markEvaluated pending) := by
    intro r pending before
    fun_induction Registry.markEvaluated r pending with
    | case1 r => exact before
    | case2 r h pending absent ih => exact ih before
    | case3 r h pending m found evaluated ih => exact ih before
    | case4 r h pending m found fresh ih => exact ih (kept.status _ _ _ before)
  obtain ⟨t, hlink, rfl⟩ := evaluate_eq run
  have after := kept.link ⟨depth, hlink⟩ before
  split
  · exact marks after
  · exact after

end Esm.Linking
