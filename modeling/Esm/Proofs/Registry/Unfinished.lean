-- SUMMARY: What linking leaves unfinished: only modules that the failed one reaches through compiled ones.
import Mathlib.Data.List.Forall2
import Mathlib.Logic.Relation
import Esm.Proofs.Registry.Dependencies
import Esm.Proofs.Registry.Supply

/-!
# Unfinished modules

A module that fails to be linked is put back, and so is every module on the way to the import that
failed. These modules are compiled, and each one requests the next. Other modules may have been
linked to them meanwhile, on a cycle. So what linking leaves unfinished is still reached through
compiled modules only, from the module that it began with. If linking succeeds, it leaves nothing
unfinished but what was so before.
-/

namespace Esm

namespace Registry

/-- The module of a handle is compiled and no more. -/
def Compiled (r : Registry) (h : Handle) : Prop :=
  ∃ m, r.get? h = some m ∧ m.status = .compiled

/-- The module of a handle is being linked. -/
def Underway (r : Registry) (h : Handle) : Prop := ∃ m, r.get? h = some m ∧ m.status = .linking

/-- The module of a handle is linked, or evaluated. -/
def Bound (r : Registry) (h : Handle) : Prop :=
  ∃ m, r.get? h = some m ∧ (m.status = .linked ∨ m.status = .evaluated)

/-- One module requests something that means another. -/
def Requests (names : String → String → String) (r : Registry) (h d : Handle) : Prop :=
  ∃ m name, r.get? h = some m ∧ name ∈ m.module.imports names ∧ r.find? name = some d

/-- From one module to another by requests, through modules that are all compiled. -/
def Unfinished (names : String → String → String) (r : Registry) (h k : Handle) : Prop :=
  r.Compiled h ∧ Relation.ReflTransGen (fun j k => r.Requests names j k ∧ r.Compiled k) h k

variable {names : String → String → String} {r r' r'' : Registry}

-- ---------------------------------------------------------------------------
-- Growth
-- ---------------------------------------------------------------------------

theorem Bound.advances {h : Handle} (bound : r.Bound h) (advances : r.Advances r') :
    r'.Bound h := by
  obtain ⟨m, found, status⟩ := bound
  obtain ⟨m', found', advance⟩ := advances.kept found
  have past : m.status ≠ .compiled := by
    intro compiled
    rw [compiled] at status
    cases status <;> contradiction
  exact ⟨m', found', (advance.held past).1 ▸ status⟩

theorem Underway.advances {h : Handle} (underway : r.Underway h) (advances : r.Advances r') :
    r'.Underway h := by
  obtain ⟨m, found, linking⟩ := underway
  obtain ⟨m', found', advance⟩ := advances.kept found
  have past : m.status ≠ .compiled := by
    rw [linking]
    exact nofun
  exact ⟨m', found', (advance.held past).1.trans linking⟩

/-- What is being linked afterwards was being linked before. -/
theorem Underway.origin {h : Handle} (underway : r'.Underway h) (advances : r.Advances r') :
    r.Underway h := by
  obtain ⟨m', found', linking⟩ := underway
  obtain ⟨m, found, -, status, -⟩ := advances.origin found' (by rw [linking]; decide)
  exact ⟨m, found, status.symm.trans linking⟩

/-- A registered module that is compiled afterwards was compiled before. -/
theorem Compiled.origin {h : Handle} {m : Registered} (compiled : r'.Compiled h)
    (advances : r.Advances r') (found : r.get? h = some m) : m.status = .compiled := by
  obtain ⟨m', found', status⟩ := compiled
  obtain ⟨_, kept, advance⟩ := advances.kept found
  rw [found'] at kept
  cases kept
  by_contra past
  exact past ((advance.held past).1.symm.trans status)

theorem Bound.not_compiled {h : Handle} (bound : r.Bound h) : ¬ r.Compiled h := by
  intro ⟨m, found, compiled⟩
  obtain ⟨_, found', status⟩ := bound
  rw [found] at found'
  cases found'
  rw [compiled] at status
  cases status <;> contradiction

theorem stage {h : Handle} {m : Registered} (found : r.get? h = some m) :
    r.Compiled h ∨ r.Underway h ∨ r.Bound h := by
  cases status : m.status with
  | compiled => exact Or.inl ⟨m, found, status⟩
  | linking => exact Or.inr (Or.inl ⟨m, found, status⟩)
  | linked => exact Or.inr (Or.inr ⟨m, found, Or.inl status⟩)
  | evaluated => exact Or.inr (Or.inr ⟨m, found, Or.inr status⟩)

theorem Requests.grows {j k : Handle} (requests : r.Requests names j k) (grows : r.Grows r') :
    r'.Requests names j k := by
  obtain ⟨m, name, found, mem, named⟩ := requests
  obtain ⟨m', found', advance⟩ := grows.advances.kept found
  exact ⟨m', name, found', advance.module.symm ▸ mem, grows.named named⟩

theorem Requests.update {j k : Handle} (requests : r.Requests names j k) (h : Handle)
    {change : Registered → Registered} (module : ∀ m, (change m).module = m.module) :
    (r.update h change).Requests names j k := by
  obtain ⟨m, name, found, mem, named⟩ := requests
  have named' : (r.update h change).find? name = some k := named
  have found' : (r.update h change).get? j = if j = h then some (change m) else some m := by
    rw [get?_update, found]
    rfl
  by_cases same : j = h
  · rw [if_pos same] at found'
    exact ⟨_, name, found', (module m).symm ▸ mem, named'⟩
  · rw [if_neg same] at found'
    exact ⟨_, name, found', mem, named'⟩

theorem Unfinished.here {h : Handle} (compiled : r.Compiled h) : r.Unfinished names h h :=
  ⟨compiled, .refl⟩

/-- A compiled module goes before what it requests. -/
theorem Unfinished.head {h d k : Handle} (compiled : r.Compiled h) (requests : r.Requests names h d)
    (unfinished : r.Unfinished names d k) : r.Unfinished names h k :=
  ⟨compiled, .head ⟨requests, unfinished.1⟩ unfinished.2⟩

/-- If one module is put back, what was unfinished still is. -/
theorem Unfinished.putBack {h d k : Handle} (unfinished : r.Unfinished names d k) :
    (r.setStatus h .compiled).Unfinished names d k := by
  have compiled : ∀ {k}, r.Compiled k → (r.setStatus h .compiled).Compiled k := by
    intro k ⟨m, found, status⟩
    unfold setStatus Compiled
    rw [get?_update, found]
    by_cases same : k = h
    · exact ⟨_, if_pos same, rfl⟩
    · exact ⟨m, if_neg same, status⟩
  have requests : ∀ {j k}, r.Requests names j k → (r.setStatus h .compiled).Requests names j k := by
    intro j k requests
    exact requests.update h fun _ => rfl
  refine ⟨compiled unfinished.1, Relation.ReflTransGen.mono ?_ _ _ unfinished.2⟩
  intro j k step
  exact ⟨requests step.1, compiled step.2⟩

-- ---------------------------------------------------------------------------
-- What is left
-- ---------------------------------------------------------------------------

/-- What a name has been linked to: the module of that name, which is linked, or was being linked
before, or is one of the modules `left` unfinished. -/
structure Target (r r' : Registry) (left : Handle → Prop) (name : String) (d : Handle) : Prop where
  named : r'.find? name = some d
  bound : r'.Bound d ∨ r.Underway d ∨ left d

/-- What linking leaves: new modules that are compiled are all `left` unfinished, and modules that
were linked have been linked to what their imports mean. -/
structure Leaves (names : String → String → String) (r r' : Registry) (left : Handle → Prop) :
    Prop where
  added : ∀ {k}, r.get? k = none → r'.Compiled k → left k
  linked : ∀ {k m'}, r'.get? k = some m' → m'.status = .linked →
    (∀ m, r.get? k = some m → m.status = .compiled) →
    List.Forall₂ (r.Target r' left) (m'.module.imports names) m'.dependencies

variable {left left' : Handle → Prop}

theorem exists_of_forall₂ {α β : Type} {R : α → β → Prop} {xs : List α} {ys : List β}
    (all : List.Forall₂ R xs ys) {x : α} (mem : x ∈ xs) : ∃ y, R x y := by
  induction all with
  | nil => cases mem
  | cons first _ ih =>
    cases mem with
    | head => exact ⟨_, first⟩
    | tail _ mem => exact ih mem

theorem Leaves.refl (r : Registry) : r.Leaves names r left := by
  refine ⟨?_, ?_⟩
  · intro k absent ⟨m, found, _⟩
    rw [absent] at found
    cases found
  · intro k m found linked before
    rw [before m found] at linked
    cases linked

theorem Leaves.mono (leaves : r.Leaves names r' left) (le : ∀ k, left k → left' k) :
    r.Leaves names r' left' := by
  refine ⟨fun absent compiled => le _ (leaves.added absent compiled), ?_⟩
  intro k m' found linked before
  refine (leaves.linked found linked before).imp ?_
  intro name d target
  exact ⟨target.named, target.bound.imp_right fun other => other.imp_right (le d)⟩

/-- What the first part leaves unfinished, the second part may take care of. -/
theorem Leaves.trans (first : r.Leaves names r' left') (second : r'.Leaves names r'' left)
    (grows : r.Grows r') (grows' : r'.Grows r'')
    (rest : ∀ k, left' k → r''.Bound k ∨ r.Underway k ∨ left k) : r.Leaves names r'' left := by
  refine ⟨?_, ?_⟩
  · intro k absent compiled
    cases between : r'.get? k with
    | none => exact second.added between compiled
    | some m' =>
      have compiled' := compiled.origin grows'.advances between
      obtain bound | ⟨m, found, -⟩ | left := rest k (first.added absent ⟨m', between, compiled'⟩)
      · exact (bound.not_compiled compiled).elim
      · rw [absent] at found
        cases found
      · exact left
  · intro k m'' found linked before
    have later : (∀ m', r'.get? k = some m' → m'.status = .compiled) →
        List.Forall₂ (r.Target r'' left) (m''.module.imports names) m''.dependencies := by
      intro compiled
      refine (second.linked found linked compiled).imp ?_
      intro name d target
      refine ⟨target.named, target.bound.imp_right fun other => other.imp_left ?_⟩
      intro underway
      exact underway.origin grows.advances
    cases between : r'.get? k with
    | none =>
      apply later
      intro m' found'
      rw [between] at found'
      cases found'
    | some m' =>
      by_cases compiled : m'.status = .compiled
      · apply later
        intro _ found'
        rw [between] at found'
        cases found'
        exact compiled
      · -- it was linked in the first part, and is left alone in the second
        obtain ⟨_, found', advance⟩ := grows'.advances.kept between
        rw [found] at found'
        cases found'
        obtain ⟨status, dependencies⟩ := advance.held compiled
        rw [advance.module, dependencies]
        refine (first.linked between (status.symm.trans linked) before).imp ?_
        intro name d target
        refine ⟨grows'.named target.named, ?_⟩
        obtain bound | underway | left := target.bound
        · exact Or.inl (bound.advances grows'.advances)
        · exact Or.inr (Or.inl underway)
        · exact rest d left

/-- A target that was found while `h` was being linked, once `h` is put back or linked itself. -/
theorem Target.around {h d : Handle} {name : String} {change : Registered → Registered}
    (target : (r.setStatus h .linking).Target r' left name d) (le : ∀ k, left k → left' k)
    (own : (r'.update h change).Bound h ∨ left' h) :
    r.Target (r'.update h change) left' name d := by
  refine ⟨target.named, ?_⟩
  by_cases same : d = h
  · rw [same]
    exact own.imp_right Or.inr
  · obtain ⟨m, found, status⟩ | ⟨m, found, status⟩ | left := target.bound
    · exact Or.inl ⟨m, by rw [get?_update, if_neg same, found], status⟩
    · rw [setStatus, get?_update, if_neg same] at found
      exact Or.inr (Or.inl ⟨m, found, status⟩)
    · exact Or.inr (Or.inr (le d left))

/-- A module whose requests were gone through, and that is put back or linked in the end. -/
theorem Leaves.around {h : Handle} {m : Registered} {change : Registered → Registered}
    (found : r.get? h = some m) (within : (r.setStatus h .linking).Leaves names r' left)
    (le : ∀ k, left k → left' k) (own : (r'.update h change).Bound h ∨ left' h)
    (self : ∀ m', (r'.update h change).get? h = some m' → m'.status = .linked →
      List.Forall₂ ((r.setStatus h .linking).Target r' left) (m'.module.imports names)
        m'.dependencies) :
    r.Leaves names (r'.update h change) left' := by
  refine ⟨?_, ?_⟩
  · intro k absent ⟨m', found', compiled⟩
    have other : k ≠ h := by
      intro same
      rw [same, found] at absent
      cases absent
    rw [get?_update, if_neg other] at found'
    apply le k
    refine within.added ?_ ⟨m', found', compiled⟩
    rw [setStatus, get?_update, if_neg other, absent]
  · intro k m' found' linked before
    have targets : List.Forall₂ ((r.setStatus h .linking).Target r' left)
        (m'.module.imports names) m'.dependencies := by
      by_cases same : k = h
      · rw [same] at found'
        exact self m' found' linked
      · rw [get?_update, if_neg same] at found'
        apply within.linked found' linked
        rw [setStatus, get?_update, if_neg same]
        exact before
    refine targets.imp ?_
    intro name d target
    exact target.around le own

end Registry

-- ---------------------------------------------------------------------------
-- Linking
-- ---------------------------------------------------------------------------

namespace Linking

open Registry

variable {host : Host σ ε} {States : σ → Prop} {names : String → String → String}
  {offers : String → Module → Prop} {asked : σ}

/-- What a failure leaves unfinished, from the modules that `starts` holds of. -/
def Blamed {α : Type} (names : String → String → String) (r : Registry)
    (result : Except (LinkError ε) α) (starts : Handle → Prop) (k : Handle) : Prop :=
  (∃ e, result = .error e) ∧ ∃ d, starts d ∧ r.Unfinished names d k

/-- Success leaves nothing unfinished. -/
theorem Blamed.ok {α : Type} {r : Registry} {a : α} {starts : Handle → Prop} {k : Handle} :
    ¬ Blamed names r (.ok a : Except (LinkError ε) α) starts k := by
  intro ⟨⟨e, failed⟩, _⟩
  cases failed

theorem Required.leaves {name : String} {s t : Linking σ} {h : Handle}
    (required : Required host offers asked name s t (.ok h)) :
    s.registry.Leaves names t.registry (· = h) := by
  generalize hfound : (Except.ok h : Except ε Handle) = found at required
  cases required with
  | found _ same =>
    rw [same]
    exact .refl s.registry
  | failed => cases hfound
  | added _ _ _ adds _ =>
    cases hfound
    refine ⟨?_, ?_⟩
    · intro k absent ⟨m, hm, _⟩
      rw [adds.get?, absent] at hm
      split at hm
      · assumption
      · cases hm
    · intro k m hm linked before
      rw [adds.get?] at hm
      split at hm
      · cases hm
        cases linked
      · rw [before m hm] at linked
        cases linked

/-- A load that fails changes nothing. -/
theorem Required.unchanged {name : String} {s t : Linking σ} {cause : ε}
    (required : Required host offers asked name s t (.error cause)) : t.registry = s.registry := by
  generalize hfound : (Except.error cause : Except ε Handle) = found at required
  cases required with
  | found => cases hfound
  | failed _ same _ => exact same
  | added => cases hfound

/-- A module that is found and then linked. -/
theorem Required.leaves_visited {name : String} {s t u : Linking σ} {h : Handle}
    {result : Except (LinkError ε) Unit} (required : Required host offers asked name s t (.ok h))
    (visited : t.registry.Leaves names u.registry (Blamed names u.registry result (· = h)))
    (grows : t.registry.Grows u.registry) (indexed : u.registry.Indexed)
    (done : result = .ok () → u.registry.Bound h ∨ u.registry.Underway h) :
    s.registry.Leaves names u.registry (Blamed names u.registry result (· = h)) := by
  refine required.leaves.trans visited required.grows grows ?_
  intro k same
  rw [same]
  obtain ⟨m, hm, -⟩ := indexed.named (grows.named required.find?)
  cases result with
  | ok =>
    refine (done rfl).imp_right fun underway => Or.inl ?_
    exact (underway.origin grows.advances).origin required.grows.advances
  | error e =>
    obtain compiled | underway | bound := stage hm
    · exact Or.inr (Or.inr ⟨⟨e, rfl⟩, h, rfl, .here compiled⟩)
    · refine Or.inr (Or.inl ?_)
      exact (underway.origin grows.advances).origin required.grows.advances
    · exact Or.inl bound

/-- A module that is put back is compiled. -/
theorem compiled_putBack {h : Handle} {t : Linking σ} {m : Registered}
    (found : t.registry.get? h = some m) : (t.putBack h).registry.Compiled h := by
  refine ⟨{ m with status := .compiled }, ?_, rfl⟩
  unfold putBack mapRegistry setStatus
  rw [get?_update, if_pos rfl, found]
  rfl

/-- What a failure leaves unfinished from the requests of a module is unfinished from that module,
once that is put back. -/
theorem Blamed.putBack {α : Type} {h k : Handle} {t : Linking σ} {m : Registered}
    {result : Except (LinkError ε) α} {e : LinkError ε}
    (found : t.registry.get? h = some m)
    (blamed : Blamed names t.registry result
      (fun d => ∃ name ∈ m.module.imports names, t.registry.find? name = some d) k) :
    Blamed names (t.putBack h).registry (.error e : Except (LinkError ε) Unit) (· = h) k := by
  obtain ⟨-, d, ⟨name, mem, named⟩, unfinished⟩ := blamed
  have requests : (t.registry.setStatus h .compiled).Requests names h d := by
    have requests : t.registry.Requests names h d := ⟨m, name, found, mem, named⟩
    exact requests.update h fun _ => rfl
  exact ⟨⟨e, rfl⟩, h, rfl, unfinished.putBack.head (compiled_putBack found) requests⟩

/-- What is left by a module that is put back. -/
theorem leaves_putBack {α : Type} {h : Handle} {s t : Linking σ} {m : Registered}
    {result : Except (LinkError ε) α} (e : LinkError ε) (found : s.registry.get? h = some m)
    (leaves : (s.marked h).registry.Leaves names t.registry (Blamed names t.registry result
      fun d => ∃ name ∈ m.module.imports names, t.registry.find? name = some d))
    (grows : (s.marked h).registry.Grows t.registry) :
    s.registry.Leaves names (t.putBack h).registry
      (Blamed names (t.putBack h).registry (.error e : Except (LinkError ε) Unit) (· = h)) := by
  obtain ⟨m', found', module, -⟩ := marked_advances found grows.advances
  have own := compiled_putBack found'
  refine leaves.around found ?_ (Or.inr ⟨⟨e, rfl⟩, h, rfl, .here own⟩) ?_
  · intro k blamed
    rw [← module] at blamed
    exact Blamed.putBack found' blamed
  · intro n hn linked
    obtain ⟨_, found'', compiled⟩ := own
    cases hn.symm.trans found''
    rw [compiled] at linked
    cases linked

/-- What is left by a module that is linked, which is nothing of its own. -/
theorem leaves_linkedTo {left left' : Handle → Prop} {h : Handle} {s t : Linking σ} {m : Registered}
    {dependencies : List Handle} (found : s.registry.get? h = some m)
    (leaves : (s.marked h).registry.Leaves names t.registry left)
    (grows : (s.marked h).registry.Grows t.registry) (nothing : ∀ k, ¬ left k)
    (targets : List.Forall₂ (fun name d => t.registry.find? name = some d ∧
      (t.registry.Bound d ∨ t.registry.Underway d)) (m.module.imports names) dependencies) :
    (t.linkedTo h dependencies).registry.Bound h ∧
      s.registry.Leaves names (t.linkedTo h dependencies).registry left' := by
  obtain ⟨m', found', module, -⟩ := marked_advances found grows.advances
  have linked : (t.linkedTo h dependencies).registry.get? h =
      some { m' with dependencies := dependencies, status := .linked } := by
    simp only [Linking.linkedTo, mapRegistry, get?_update, found', if_true]
    rfl
  have own : (t.linkedTo h dependencies).registry.Bound h := ⟨_, linked, Or.inl rfl⟩
  refine ⟨own, leaves.around found ?_ (Or.inl own) ?_⟩
  · intro k blamed
    exact absurd blamed (nothing k)
  · intro n hn _
    cases hn.symm.trans linked
    rw [module]
    refine targets.imp ?_
    intro name d target
    refine ⟨target.1, target.2.imp_right fun underway => Or.inl ?_⟩
    exact underway.origin grows.advances

/-- What linking through a host that supplies names leaves, however it ends. -/
theorem leaves_cases (supplies : host.Supplies States names offers) :
    Cases host
      (fun h s result s' => s.InStep States →
        s.registry.Leaves names s'.registry (Blamed names s'.registry result (· = h)) ∧
        (result = .ok () → s'.registry.Bound h ∨ s'.registry.Underway h))
      (fun base requests s result s' => s.InStep States →
        s.registry.Leaves names s'.registry (Blamed names s'.registry result fun d =>
          ∃ name ∈ requests.map (names base), s'.registry.find? name = some d) ∧
        ∀ hs, result = .ok hs → List.Forall₂
          (fun name d => s'.registry.find? name = some d ∧
            (s'.registry.Bound d ∨ s'.registry.Underway d))
          (requests.map (names base)) hs) := by
  have visited : ∀ {base request h s t u} {result : Except (LinkError ε) Unit}, s.InStep States →
      require host base request s = (.ok h, t) →
      Links host h t result u →
      (t.InStep States → t.registry.Leaves names u.registry (Blamed names u.registry result (· = h)) ∧
        (result = .ok () → u.registry.Bound h ∨ u.registry.Underway h)) →
      u.InStep States ∧ s.registry.Grows u.registry ∧
        u.registry.find? (names base request) = some h ∧
        s.registry.Leaves names u.registry (Blamed names u.registry result (· = h)) ∧
        (result = .ok () → u.registry.Bound h ∨ u.registry.Underway h) := by
    intro base request h s t u result steady run links visit
    obtain ⟨steady', _, -, found⟩ := required supplies steady run
    obtain ⟨steady'', grows⟩ := (grows_cases supplies).links links steady'
    obtain ⟨leaves, done⟩ := visit steady'
    exact ⟨steady'', found.grows.trans grows, grows.named found.find?,
      found.leaves_visited leaves grows steady''.indexed done, done⟩
  refine ⟨?_, ?_, ?_, ?_, ?_, ?_, ?_, ?_, ?_⟩
  · -- unknown
    intro h s absent steady
    exact ⟨.refl s.registry, nofun⟩
  · -- settled
    intro h s m found past steady
    refine ⟨.refl s.registry, fun _ => ?_⟩
    obtain ⟨_, found', compiled⟩ | underway | bound := stage found
    · rw [found] at found'
      cases found'
      exact absurd compiled past
    · exact Or.inr underway
    · exact Or.inl bound
  · -- failed
    intro h s m e t found compiled run within steady
    obtain ⟨leaves, -⟩ := within (steady.marked h)
    obtain ⟨-, grows⟩ := (grows_cases supplies).linksAll run (steady.marked h)
    exact ⟨leaves_putBack e found leaves grows, nofun⟩
  · -- done
    intro h s m dependencies t found compiled run within steady
    obtain ⟨leaves, targets⟩ := within (steady.marked h)
    obtain ⟨-, grows⟩ := (grows_cases supplies).linksAll run (steady.marked h)
    obtain ⟨own, leaves'⟩ :=
      leaves_linkedTo found leaves grows (fun k => Blamed.ok) (targets dependencies rfl)
    exact ⟨leaves', fun _ => Or.inl own⟩
  · -- nil
    intro base s steady
    refine ⟨.refl s.registry, ?_⟩
    intro hs ok
    cases ok
    exact .nil
  · -- missing
    intro base request requests s cause t run steady
    obtain ⟨-, _, -, found⟩ := required supplies steady run
    refine ⟨?_, nofun⟩
    rw [found.unchanged]
    exact .refl s.registry
  · -- blocked
    intro base request requests s h t e u run links visit steady
    obtain ⟨-, -, named, leaves, -⟩ := visited steady run links visit
    refine ⟨leaves.mono ?_, nofun⟩
    intro k ⟨_, d, same, unfinished⟩
    rw [same] at unfinished
    exact ⟨⟨e, rfl⟩, h, ⟨_, List.mem_cons_self, named⟩, unfinished⟩
  · -- stopped
    intro base request requests s h t u e v run links visit linksAll rest steady
    obtain ⟨steady', grows, -, leaves, -⟩ := visited steady run links visit
    obtain ⟨-, grows'⟩ := (grows_cases supplies).linksAll linksAll steady'
    obtain ⟨leaves', -⟩ := rest steady'
    refine ⟨(leaves.trans leaves' grows grows' fun k blamed => ?_).mono ?_, nofun⟩
    · exact (Blamed.ok blamed).elim
    · intro k ⟨_, d, ⟨name, mem, named⟩, unfinished⟩
      exact ⟨⟨e, rfl⟩, d, ⟨name, List.mem_cons_of_mem _ mem, named⟩, unfinished⟩
  · -- cons
    intro base request requests s h t u hs v run links visit linksAll rest steady
    obtain ⟨steady', grows, named, leaves, done⟩ := visited steady run links visit
    obtain ⟨-, grows'⟩ := (grows_cases supplies).linksAll linksAll steady'
    obtain ⟨leaves', targets⟩ := rest steady'
    refine ⟨(leaves.trans leaves' grows grows' fun k blamed => ?_).mono ?_, ?_⟩
    · exact (Blamed.ok blamed).elim
    · intro k blamed
      exact (Blamed.ok blamed).elim
    · intro hs' ok
      cases ok
      refine .cons ⟨grows'.named named, ?_⟩ (targets hs rfl)
      obtain bound | underway := done rfl
      · exact Or.inl (bound.advances grows'.advances)
      · exact Or.inr (underway.advances grows'.advances)

end Linking

end Esm
