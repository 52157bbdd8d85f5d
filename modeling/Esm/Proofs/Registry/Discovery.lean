-- SUMMARY: The order in which a depth-first traversal of imports meets names, and that linking loads in it.
import Mathlib.Data.Finset.Card
import Mathlib.Data.Finset.Range
import Esm.Proofs.Registry.Depth
import Esm.Proofs.Registry.Log
import Esm.Proofs.Registry.Unfinished

/-!
# Discovery

A traversal of imports keeps a list of the names that are still to be looked at. It takes the first
one; if the module of that name is to be opened, its imports come before the rest of the list. To be
opened are modules that are compiled or not registered yet, once each. A name that is not registered
is first met when its module is opened, or when it turns out that it has none, which ends the
traversal.

Linking asks the host for names in this order. The traversal knows nothing of linking: it looks at
the registry before, to tell what is compiled and what is registered, and at the modules that are
registered in the end.
-/

namespace Esm

namespace Registry

-- ---------------------------------------------------------------------------
-- The traversal
-- ---------------------------------------------------------------------------

/-- The module to open at a handle: it was compiled or not registered before, and is not opened. -/
def toOpen (before after : Registry) (opened : List Handle) (h : Handle) : Option Module :=
  match after.get? h with
  | none => none
  | some m =>
    if h ∈ opened then none
    else
      match before.get? h with
      | none => some m.module
      | some m₀ => if m₀.status = .compiled then some m.module else none

/-- The number of modules that are not opened. -/
def unopened (after : Registry) (opened : List Handle) : Nat :=
  (Finset.range after.count \ opened.toFinset).card

theorem unopened_lt {before after : Registry} {opened : List Handle} {h : Handle} {m : Module}
    (open_ : toOpen before after opened h = some m) :
    after.unopened (h :: opened) < after.unopened opened := by
  unfold toOpen at open_
  split at open_
  · cases open_
  · rename_i m' found
    split at open_
    · cases open_
    · rename_i fresh
      apply Finset.card_lt_card
      apply Finset.ssubset_iff_of_subset ?_ |>.2
      · refine ⟨h, ?_, ?_⟩
        · simp [fresh, get?_eq_some_lt found]
        · simp
      · intro k mem
        simp only [List.toFinset_cons, Finset.mem_sdiff, Finset.mem_insert, not_or] at mem ⊢
        exact ⟨mem.1, mem.2.2⟩

/-- The names that were not registered before, in the order in which the traversal of the names
`pending` first meets them. -/
def firstMet (names : String → String → String) (before after : Registry) (opened : List Handle) :
    List String → List String
  | [] => []
  | name :: pending =>
    match after.find? name with
    | none => [name]
    | some h =>
      match _ : toOpen before after opened h with
      | none => firstMet names before after opened pending
      | some m =>
        let rest := firstMet names before after (h :: opened) (m.imports names ++ pending)
        if before.find? name = none then name :: rest else rest
termination_by pending => (after.unopened opened, pending.length)
decreasing_by
  · exact Prod.Lex.right _ (by simp)
  · exact Prod.Lex.left _ _ (unopened_lt (by assumption))

/-- The names that were not registered before, in the order in which the traversal that starts at a
module first meets them. -/
def metFrom (names : String → String → String) (before after : Registry) (root : Handle) :
    List String :=
  match toOpen before after [] root with
  | none => []
  | some m => firstMet names before after [root] (m.imports names)

theorem firstMet_nil {names : String → String → String} {before after : Registry}
    {opened : List Handle} : firstMet names before after opened [] = [] := by
  unfold firstMet
  rfl

/-- A name that gets no module is the last one met. -/
theorem firstMet_missing {names : String → String → String} {before after : Registry}
    {opened : List Handle} {name : String} {pending : List String}
    (absent : after.find? name = none) :
    firstMet names before after opened (name :: pending) = [name] := by
  unfold firstMet
  split
  · rfl
  · rename_i h found
    rw [absent] at found
    cases found

/-- A module that is not to be opened is passed over. -/
theorem firstMet_passed {names : String → String → String} {before after : Registry}
    {opened : List Handle} {name : String} {h : Handle} {pending : List String}
    (found : after.find? name = some h) (passed : toOpen before after opened h = none) :
    firstMet names before after opened (name :: pending) =
      firstMet names before after opened pending := by
  conv_lhs => unfold firstMet
  split
  · rename_i absent
    rw [found] at absent
    cases absent
  · rename_i k named
    rw [found] at named
    cases named
    split
    · rfl
    · rename_i m open_
      rw [passed] at open_
      cases open_

/-- The imports of a module that is opened come first. -/
theorem firstMet_opened {names : String → String → String} {before after : Registry}
    {opened : List Handle} {name : String} {h : Handle} {m : Module} {pending : List String}
    (found : after.find? name = some h) (opens : toOpen before after opened h = some m) :
    firstMet names before after opened (name :: pending) =
      (if before.find? name = none then [name] else []) ++
        firstMet names before after (h :: opened) (m.imports names ++ pending) := by
  conv_lhs => unfold firstMet
  split
  · rename_i absent
    rw [found] at absent
    cases absent
  · rename_i k named
    rw [found] at named
    cases named
    split
    · rename_i passed
      rw [opens] at passed
      cases passed
    · rename_i m' opens'
      rw [opens] at opens'
      cases opens'
      split
      · rfl
      · rfl

-- ---------------------------------------------------------------------------
-- Linking and the traversal
-- ---------------------------------------------------------------------------

/-- What is registered stays registered, and names mean what they meant. -/
structure Extends (r r' : Registry) : Prop where
  kept : ∀ {h m}, r.get? h = some m → ∃ m', r'.get? h = some m' ∧ m'.module = m.module
  named : ∀ {name h}, r.find? name = some h → r'.find? name = some h

theorem Extends.refl (r : Registry) : r.Extends r := ⟨fun found => ⟨_, found, rfl⟩, id⟩

theorem Extends.trans {r r' r'' : Registry} (first : r.Extends r') (second : r'.Extends r'') :
    r.Extends r'' := by
  refine ⟨?_, fun found => second.named (first.named found)⟩
  intro h m found
  obtain ⟨m', found', module⟩ := first.kept found
  obtain ⟨m'', found'', module'⟩ := second.kept found'
  exact ⟨m'', found'', module'.trans module⟩

theorem Grows.extends {r r' : Registry} (grows : r.Grows r') : r.Extends r' := by
  refine ⟨?_, grows.named⟩
  intro h m found
  obtain ⟨m', found', advance⟩ := grows.advances.kept found
  exact ⟨m', found', advance.module⟩

theorem extends_update (r : Registry) (h : Handle) {change : Registered → Registered}
    (module : ∀ m, (change m).module = m.module) : r.Extends (r.update h change) := by
  refine ⟨?_, fun found => found⟩
  intro k m found
  rw [get?_update, found]
  split
  · exact ⟨change m, rfl, module m⟩
  · exact ⟨m, rfl, rfl⟩

theorem toOpen_cons (before after : Registry) (opened : List Handle) (h k : Handle) :
    toOpen before after (h :: opened) k = if k = h then none else toOpen before after opened k := by
  unfold toOpen
  cases after.get? k with
  | none => simp only [ite_self]
  | some m =>
    by_cases same : k = h
    · simp [same]
    · simp [same]

/-- Where linking stands in the traversal once the modules `opened` have been opened: to be opened
are the compiled ones, all of which were registered before. -/
structure Frontier (before after : Registry) (opened : List Handle) (r : Registry) : Prop where
  grown : before.Extends r
  present : ∀ h ∈ opened, ∃ m, r.get? h = some m
  earlier : ∀ {h}, r.Compiled h → ∃ m₀, before.get? h = some m₀
  toOpen : ∀ {h m}, r.get? h = some m →
    toOpen before after opened h = if m.status = .compiled then some m.module else none

variable {before after r r' : Registry} {opened : List Handle}

theorem Frontier.start (extends_ : r.Extends after) : Frontier r after [] r := by
  refine ⟨.refl r, nofun, ?_, ?_⟩
  · intro h ⟨m, found, _⟩
    exact ⟨m, found⟩
  · intro h m found
    obtain ⟨m', found', module⟩ := extends_.kept found
    unfold Registry.toOpen
    simp [found, found', module]

/-- A compiled module is opened when it is marked. -/
theorem Frontier.mark (frontier : Frontier before after opened r) {h : Handle} {m : Registered}
    (found : r.get? h = some m) : Frontier before after (h :: opened) (r.setStatus h .linking) := by
  have marked : (r.setStatus h .linking).get? h = some { m with status := .linking } := by
    rw [setStatus, get?_update, if_pos rfl, found]
    rfl
  refine ⟨frontier.grown.trans (extends_update r h fun _ => rfl), ?_, ?_, ?_⟩
  · intro k mem
    cases List.mem_cons.1 mem with
    | inl same => exact ⟨_, by rw [same]; exact marked⟩
    | inr mem => exact get?_update_present (frontier.present k mem)
  · rintro k ⟨n, hk, status⟩
    obtain ⟨_, rfl⟩ | ⟨_, hk'⟩ := get?_update_eq_some found hk
    · cases status
    · exact frontier.earlier ⟨n, hk', status⟩
  · intro k n hk
    rw [toOpen_cons]
    obtain ⟨same, rfl⟩ | ⟨other, hk'⟩ := get?_update_eq_some found hk
    · rw [if_pos same]
      rfl
    · rw [if_neg other]
      exact frontier.toOpen hk'

/-- A module that has just been registered is to be opened. -/
theorem Frontier.opens_added (frontier : Frontier before after opened r) {m : Registered}
    (adds : r.Adds m r') (extends_ : r'.Extends after) :
    Registry.toOpen before after opened r.count = some m.module := by
  obtain ⟨m', found', module⟩ := extends_.kept ((adds.get? r.count).trans (if_pos rfl))
  have fresh : r.count ∉ opened := by
    intro mem
    obtain ⟨n, found⟩ := frontier.present _ mem
    rw [get?_count] at found
    cases found
  have absent : before.get? r.count = none := by
    cases found : before.get? r.count with
    | none => rfl
    | some m₀ =>
      obtain ⟨_, kept, -⟩ := frontier.grown.kept found
      rw [get?_count] at kept
      cases kept
  unfold Registry.toOpen
  simp only [found', if_neg fresh, absent, module]

/-- A module that has just been registered is opened when it is marked. -/
theorem Frontier.add (frontier : Frontier before after opened r) {m : Registered}
    (adds : r.Adds m r') (grows : r.Grows r') :
    Frontier before after (r.count :: opened) (r'.setStatus r.count .linking) := by
  have added : r'.get? r.count = some m := (adds.get? r.count).trans (if_pos rfl)
  have old : ∀ {k}, k ≠ r.count → r'.get? k = r.get? k :=
    fun other => (adds.get? _).trans (if_neg other)
  refine ⟨?_, ?_, ?_, ?_⟩
  · exact (frontier.grown.trans grows.extends).trans (extends_update r' r.count fun _ => rfl)
  · intro k mem
    apply get?_update_present
    cases List.mem_cons.1 mem with
    | inl same => exact ⟨m, by rw [same]; exact added⟩
    | inr mem =>
      obtain ⟨n, found⟩ := frontier.present k mem
      obtain ⟨n', found', -⟩ := grows.extends.kept found
      exact ⟨n', found'⟩
  · intro k ⟨n, hk, status⟩
    obtain ⟨_, rfl⟩ | ⟨other, hk'⟩ := get?_update_eq_some added hk
    · cases status
    · rw [old other] at hk'
      exact frontier.earlier ⟨n, hk', status⟩
  · intro k n hk
    rw [toOpen_cons]
    obtain ⟨same, rfl⟩ | ⟨other, hk'⟩ := get?_update_eq_some added hk
    · rw [if_pos same]
      rfl
    · rw [if_neg other]
      rw [old other] at hk'
      exact frontier.toOpen hk'

/-- To link a module that is marked opens nothing. -/
theorem Frontier.link (frontier : Frontier before after opened r) {h : Handle} {m : Registered}
    (found : r.get? h = some m) (linking : m.status = .linking) (dependencies : List Handle) :
    Frontier before after opened
      (r.update h fun m => { m with dependencies := dependencies, status := .linked }) := by
  refine ⟨frontier.grown.trans (extends_update r h fun _ => rfl), ?_, ?_, ?_⟩
  · intro k mem
    exact get?_update_present (frontier.present k mem)
  · intro k ⟨n, hk, status⟩
    obtain ⟨_, rfl⟩ | ⟨_, hk'⟩ := get?_update_eq_some found hk
    · cases status
    · exact frontier.earlier ⟨n, hk', status⟩
  · intro k n hk
    obtain ⟨rfl, rfl⟩ | ⟨_, hk'⟩ := get?_update_eq_some found hk
    · rw [frontier.toOpen found, linking]
      rfl
    · exact frontier.toOpen hk'

/-- What the registry in the end has to do with the one that some part of linking leads to: it
extends it, and if that part failed, it has no more names. -/
structure Leads (ok : Bool) (r after : Registry) : Prop where
  extends_ : r.Extends after
  ended : ok = false → ∀ name, r.find? name = none → after.find? name = none

/-- The same of a registry with the same modules. -/
theorem Leads.update {ok : Bool} {h : Handle} {change : Registered → Registered}
    (leads : Leads ok (r.update h change) after) (module : ∀ m, (change m).module = m.module) :
    Leads ok r after :=
  ⟨(extends_update r h module).trans leads.extends_, leads.ended⟩

end Registry

namespace Linking

open Registry

variable {σ ε : Type} {names : String → String → String} {before after : Registry}

/-- A part of linking has asked for the names that the traversal of `todo` meets first, and stands
where the traversal stands then. If it failed, the traversal ends there as well. -/
inductive Meets (names : String → String → String) (before after : Registry) (opened : List Handle)
    (todo : List String) (s : Linking (σ × Log ε)) : Bool → Linking (σ × Log ε) → Prop where
  | through {log : Log ε} {opened' : List Handle} {s' : Linking (σ × Log ε)} :
    s'.host.2 = s.host.2 ++ log → Frontier before after opened' s'.registry →
    (∀ pending, firstMet names before after opened (todo ++ pending) =
      log.map Prod.fst ++ firstMet names before after opened' pending) →
    Meets names before after opened todo s true s'
  | ended {log : Log ε} {s' : Linking (σ × Log ε)} :
    s'.host.2 = s.host.2 ++ log →
    (∀ pending, firstMet names before after opened (todo ++ pending) = log.map Prod.fst) →
    Meets names before after opened todo s false s'

variable {opened : List Handle} {todo todo' : List String} {s t u : Linking (σ × Log ε)} {ok : Bool}

/-- First what gets through, and then what follows. -/
theorem Meets.append (first : Meets names before after opened todo s true t)
    (second : ∀ {opened'}, Frontier before after opened' t.registry →
      Meets names before after opened' todo' t ok u) :
    Meets names before after opened (todo ++ todo') s ok u := by
  generalize hthrough : true = through at first
  cases first with
  | ended => cases hthrough
  | @through log opened' _ appended frontier met =>
    cases second frontier with
    | @through log' opened'' _ appended' frontier' met' =>
      have both : u.host.2 = s.host.2 ++ (log ++ log') := by
        rw [appended', appended, List.append_assoc]
      refine .through both frontier' ?_
      intro pending
      rw [List.append_assoc, met, met', List.map_append, List.append_assoc]
    | @ended log' _ appended' met' =>
      have both : u.host.2 = s.host.2 ++ (log ++ log') := by
        rw [appended', appended, List.append_assoc]
      refine .ended both ?_
      intro pending
      rw [List.append_assoc, met, met', List.map_append]

/-- A module that is opened: its name may be asked for, and then what it imports is traversed. -/
theorem Meets.opens {opened' : List Handle} {asked : Log ε}
    (within : Meets names before after opened' todo' t ok u)
    (appended : t.host.2 = s.host.2 ++ asked)
    (opens : ∀ pending, firstMet names before after opened (todo ++ pending) =
      asked.map Prod.fst ++ firstMet names before after opened' (todo' ++ pending)) :
    Meets names before after opened todo s ok u := by
  cases within with
  | @through log opened'' _ appended' frontier met =>
    have both : u.host.2 = s.host.2 ++ (asked ++ log) := by
      rw [appended', appended, List.append_assoc]
    refine .through both frontier ?_
    intro pending
    rw [opens, met, List.map_append, List.append_assoc]
  | @ended log _ appended' met =>
    have both : u.host.2 = s.host.2 ++ (asked ++ log) := by
      rw [appended', appended, List.append_assoc]
    refine .ended both ?_
    intro pending
    rw [opens, met, List.map_append]

/-- What has been asked for is all that the traversal first meets, if nothing is left of it. -/
theorem Meets.order (meets : Meets names before after opened todo s ok t) {log : Log ε}
    (appended : t.host.2 = s.host.2 ++ log) :
    log.map Prod.fst = firstMet names before after opened todo := by
  cases meets with
  | @through log' opened' _ appended' frontier met =>
    have same : log = log' := List.append_cancel_left (appended.symm.trans appended')
    have met := met []
    rw [firstMet_nil, List.append_nil, List.append_nil] at met
    rw [met, same]
  | @ended log' _ appended' met =>
    have same : log = log' := List.append_cancel_left (appended.symm.trans appended')
    have met := met []
    rw [List.append_nil] at met
    rw [met, same]

variable {host : Host σ ε} {States : σ → Prop} {offers : String → Module → Prop}

/-- If the host is not asked for anything, nothing comes to the log. -/
theorem silent : s.host.2 = s.host.2 ++ ([] : Log ε) := (List.append_nil _).symm

/-- What linking a module has to do with the traversal: if it is compiled, it is opened. -/
def MeetsModule (names : String → String → String) (before after : Registry) (h : Handle)
    (s : Linking (σ × Log ε)) (ok : Bool) (s' : Linking (σ × Log ε)) : Prop :=
  ∀ {opened m}, s.registry.get? h = some m → m.status = .compiled →
    Frontier before after (h :: opened) (s.marked h).registry → Leads ok s'.registry after →
    Meets names before after (h :: opened) (m.module.imports names) s ok s'

/-- The next name of a traversal and the linking of its module. -/
theorem meets_next (supplies : host.Supplies States names offers) (indexed : before.Indexed)
    {base request : String} {h : Handle} {s t u : Linking (σ × Log ε)}
    {result : Except (LinkError ε) Unit} (steady : s.InStep (States ·.1))
    (frontier : Frontier before after opened s.registry)
    (run : require host.logged base request s = (.ok h, t))
    (links : Links host.logged h t result u)
    (visit : MeetsModule names before after h t result.isOk u)
    (leads : Leads result.isOk u.registry after) :
    Meets names before after opened [names base request] s result.isOk u := by
  obtain ⟨steady', asked, ask, found⟩ := required supplies.logged steady run
  obtain ⟨-, grows⟩ := (grows_cases supplies.logged).links links steady'
  have quiet : asked.2 = s.host.2 := Host.logged_ask ask
  have later : t.registry.Extends after := grows.extends.trans leads.extends_
  have named : after.find? (names base request) = some h := later.named found.find?
  generalize hfound : (Except.ok h : Except ε Handle) = answer at found
  cases found with
  | failed => cases hfound
  | found registered same =>
    cases hfound
    rw [same] at links visit
    have unasked : (⟨s.registry, asked⟩ : Linking (σ × Log ε)).host.2 = s.host.2 ++ [] :=
      quiet.trans silent
    obtain ⟨m, hm, module⟩ := steady.indexed.named registered
    by_cases compiled : m.status = .compiled
    · -- it was registered before, so that its name is not asked for
      have opens := frontier.toOpen hm
      rw [if_pos compiled] at opens
      have known : before.find? (names base request) ≠ none := by
        intro absent
        obtain ⟨m₀, earlier⟩ := frontier.earlier ⟨m, hm, compiled⟩
        obtain ⟨_, kept, same⟩ := frontier.grown.kept earlier
        rw [hm] at kept
        cases kept
        exact indexed.find?_eq_none.1 absent h m₀ earlier (same ▸ module)
      refine (visit hm compiled (frontier.mark hm) leads).opens unasked ?_
      intro pending
      rw [List.singleton_append, firstMet_opened named opens, if_neg known]
      rfl
    · obtain ⟨rfl, rfl⟩ := links.unique ⟨0, link_settled hm compiled⟩
      have passed := frontier.toOpen hm
      rw [if_neg compiled] at passed
      refine .through unasked frontier ?_
      intro pending
      rw [List.singleton_append, firstMet_passed named passed]
      rfl
  | @added m properties absent same _ adds load =>
    cases hfound
    have opens := frontier.opens_added adds later
    have fresh : before.find? (names base request) = none := by
      cases registered : before.find? (names base request) with
      | none => rfl
      | some k =>
        rw [frontier.grown.named registered] at absent
        cases absent
    have hm := (adds.get? s.registry.count).trans (if_pos rfl)
    have grown := adds.grows rfl (by rw [same]; exact absent)
    have appended : t.host.2 = s.host.2 ++ [(names base request, .ok s.registry.count)] :=
      quiet ▸ Host.logged_load load
    refine (visit hm rfl (frontier.add adds grown) leads).opens appended ?_
    intro pending
    rw [List.singleton_append, firstMet_opened named opens, if_pos fresh]
    rfl

/-- Linking asks for names in the order of the traversal, however it ends. -/
theorem meets_cases (supplies : host.Supplies States names offers) {before : Registry}
    (indexed : before.Indexed) (after : Registry) :
    Cases host.logged
      (fun h s result s' => s.InStep (States ·.1) →
        MeetsModule names before after h s result.isOk s')
      (fun base requests s result s' => ∀ {opened}, s.InStep (States ·.1) →
        Frontier before after opened s.registry → Leads result.isOk s'.registry after →
        Meets names before after opened (requests.map (names base)) s result.isOk s') := by
  have next : ∀ {base request h s t} {u : Linking (σ × Log ε)}
      {result : Except (LinkError ε) Unit}, s.InStep (States ·.1) →
      require host.logged base request s = (.ok h, t) →
      Links host.logged h t result u → t.InStep (States ·.1) ∧ u.InStep (States ·.1) := by
    intro base request h s t u result steady run links
    obtain ⟨steady', -⟩ := required supplies.logged steady run
    exact ⟨steady', ((grows_cases supplies.logged).links links steady').1⟩
  refine ⟨?_, ?_, ?_, ?_, ?_, ?_, ?_, ?_, ?_⟩
  · -- unknown
    intro h s absent _ opened m found
    rw [absent] at found
    cases found
  · -- settled
    intro h s m found past _ opened m' found' compiled
    rw [found] at found'
    cases found'
    exact absurd compiled past
  · -- failed
    intro h s m e t found _ _ within steady opened m' found' _ frontier leads
    rw [found] at found'
    cases found'
    have met := within (steady.marked h) frontier (leads.update fun _ => rfl)
    generalize hok : (Except.error e : Except (LinkError ε) (List Handle)).isOk = ok at met
    cases met with
    | through => cases hok
    | ended appended met => exact .ended appended met
  · -- done
    intro h s m dependencies t found _ run within steady opened m' found' _ frontier leads
    rw [found] at found'
    cases found'
    obtain ⟨-, grows⟩ := (grows_cases supplies.logged).linksAll run (steady.marked h)
    obtain ⟨n, marked, -, linking⟩ := marked_advances found grows.advances
    have met := within (steady.marked h) frontier (leads.update fun _ => rfl)
    generalize hok : (Except.ok dependencies : Except (LinkError ε) (List Handle)).isOk = ok at met
    cases met with
    | ended => cases hok
    | through appended frontier' met =>
      exact .through appended (frontier'.link marked linking dependencies) met
  · -- nil
    intro base s opened _ frontier _
    exact .through silent frontier fun _ => rfl
  · -- missing
    intro base request requests s cause t run opened steady frontier leads
    obtain ⟨-, asked, ask, found⟩ := required supplies.logged steady run
    generalize hfound : (Except.error cause : Except ε Handle) = answer at found
    cases found with
    | found => cases hfound
    | added => cases hfound
    | failed absent same load =>
      have quiet : asked.2 = s.host.2 := Host.logged_ask ask
      refine .ended (quiet ▸ Host.logged_load load) ?_
      intro pending
      have missing := leads.ended rfl (names base request) (by rw [same, absent])
      rw [List.map_cons, List.cons_append, firstMet_missing missing]
      rfl
  · -- blocked
    intro base request requests s h t e u run links visit opened steady frontier leads
    obtain ⟨steady', -⟩ := next steady run links
    have met := meets_next supplies indexed steady frontier run links (visit steady') leads
    generalize hok : (Except.error e : Except (LinkError ε) Unit).isOk = ok at met
    cases met with
    | through => cases hok
    | ended appended met =>
      -- what follows is not looked at
      exact .ended appended fun pending => met (requests.map (names base) ++ pending)
  · -- stopped
    intro base request requests s h t u e v run links visit linksAll rest opened steady frontier
      leads
    obtain ⟨steady', steady''⟩ := next steady run links
    obtain ⟨-, grows⟩ := (grows_cases supplies.logged).linksAll linksAll steady''
    have met := meets_next supplies indexed steady frontier run links (visit steady')
      ⟨grows.extends.trans leads.extends_, nofun⟩
    exact met.append fun frontier' => rest steady'' frontier' leads
  · -- cons
    intro base request requests s h t u hs v run links visit linksAll rest opened steady frontier
      leads
    obtain ⟨steady', steady''⟩ := next steady run links
    obtain ⟨-, grows⟩ := (grows_cases supplies.logged).linksAll linksAll steady''
    have met := meets_next supplies indexed steady frontier run links (visit steady')
      ⟨grows.extends.trans leads.extends_, nofun⟩
    exact met.append fun frontier' => rest steady'' frontier' leads

end Linking

end Esm
