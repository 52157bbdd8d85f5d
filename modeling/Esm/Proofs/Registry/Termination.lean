-- SUMMARY: Linking ends if finitely many names can be reached, having asked for names in traversal order.
import Mathlib.Data.Set.Finite.Basic
import Esm.Proofs.Registry.Discovery

/-!
# Termination

Linking through a host that supplies names ends as soon as there are only finitely many names that
it can reach, whatever cycles there are. Each name that is asked for is registered then, which costs
one name and brings one compiled module; each module that is entered is compiled no more. So twice
the number of names to be registered, together with the number of compiled modules, goes down.

With the order in which names are asked for, this describes completely what a linking has a host do.
-/

namespace Esm

namespace Registry

-- ---------------------------------------------------------------------------
-- Names within reach
-- ---------------------------------------------------------------------------

/-- The names that linking a module may come to: what it imports, and what compiled modules of such
names import, or modules that such names may get. -/
inductive InReach (names : String → String → String) (offers : String → Module → Prop)
    (r : Registry) (root : Handle) : String → Prop where
  | root {m : Registered} {name : String} : r.get? root = some m → m.status = .compiled →
    name ∈ m.module.imports names → InReach names offers r root name
  | registered {name next : String} {h : Handle} {m : Registered} :
    InReach names offers r root name → r.find? name = some h → r.get? h = some m →
    m.status = .compiled → next ∈ m.module.imports names → InReach names offers r root next
  | offered {name next : String} {m : Module} : InReach names offers r root name →
    r.find? name = none → offers name m → next ∈ m.imports names →
    InReach names offers r root next

/-- With finitely many modules to be had, finitely many names can be reached. -/
theorem inReach_finite {names : String → String → String} {offers : String → Module → Prop}
    (r : Registry) (root : Handle) {modules : List Module}
    (offered : ∀ {name m}, offers name m → m ∈ modules) :
    {name | InReach names offers r root name}.Finite := by
  have registered : ∀ {h m}, r.get? h = some m → m.module ∈ r.modules.map (·.module) :=
    fun found => List.mem_map_of_mem (List.mem_of_getElem? found)
  apply (List.finite_toSet ((r.modules.map (·.module) ++ modules).flatMap (·.imports names))).subset
  intro name reached
  apply List.mem_flatMap.2
  cases reached with
  | root found _ imported => exact ⟨_, List.mem_append_left _ (registered found), imported⟩
  | registered _ _ found _ imported => exact ⟨_, List.mem_append_left _ (registered found), imported⟩
  | offered _ _ supplied imported => exact ⟨_, List.mem_append_right _ (offered supplied), imported⟩

/-- From the names of a set, linking comes to names of the set only. -/
structure Confined (names : String → String → String) (offers : String → Module → Prop)
    (scope : Finset String) (r : Registry) : Prop where
  registered : ∀ {name h m}, name ∈ scope → r.find? name = some h → r.get? h = some m →
    m.status = .compiled → ∀ next ∈ m.module.imports names, next ∈ scope
  offered : ∀ {name m}, name ∈ scope → r.find? name = none → offers name m →
    ∀ next ∈ m.imports names, next ∈ scope

variable {names : String → String → String} {offers : String → Module → Prop}
  {scope : Finset String} {r r' : Registry}

theorem Confined.update (confined : Confined names offers scope r) (h : Handle)
    {change : Registered → Registered} (compiled : ∀ m, (change m).status ≠ .compiled) :
    Confined names offers scope (r.update h change) := by
  refine ⟨?_, ?_⟩
  · intro name k n mem named found status
    rw [find?_update] at named
    rw [get?_update] at found
    split at found
    · obtain ⟨m, -, rfl⟩ := Option.map_eq_some_iff.1 found
      exact absurd status (compiled m)
    · exact confined.registered mem named found status
  · intro name m mem absent offered
    rw [find?_update] at absent
    exact confined.offered mem absent offered

theorem Confined.add (confined : Confined names offers scope r) (indexed : r.Indexed)
    {m : Registered} (adds : r.Adds m r') (absent : r.find? m.module.name = none)
    (offered : offers m.module.name m.module) : Confined names offers scope r' := by
  refine ⟨?_, ?_⟩
  · intro name k n mem named found status
    rw [adds.find?] at named
    rw [adds.get?] at found
    by_cases same : m.module.name = name
    · rw [if_pos same, Option.some.injEq] at named
      rw [if_pos named.symm] at found
      cases found
      rw [same] at absent offered
      exact confined.offered mem absent offered
    · rw [if_neg same] at named
      obtain ⟨n', found', -⟩ := indexed.named named
      rw [if_neg (Nat.ne_of_lt (get?_eq_some_lt found'))] at found
      exact confined.registered mem named found status
  · intro name n mem none offered'
    rw [adds.find?] at none
    split at none
    · cases none
    · exact confined.offered mem none offered'

-- ---------------------------------------------------------------------------
-- The work that is left
-- ---------------------------------------------------------------------------

/-- The names of a set that are not registered. -/
def missing (scope : Finset String) (r : Registry) : Finset String :=
  scope.filter fun name => r.find? name = none

/-- The modules that are compiled and no more. -/
def pending (r : Registry) : Finset Handle :=
  (Finset.range r.count).filter fun h => (r.get? h).any fun m => m.status = .compiled

/-- A name that is to be registered counts twice: as such, and for the module that it gets. -/
def work (scope : Finset String) (r : Registry) : Nat :=
  2 * (r.missing scope).card + r.pending.card

theorem mem_pending {h : Handle} : h ∈ r.pending ↔ r.Compiled h := by
  unfold pending Compiled
  rw [Finset.mem_filter, Finset.mem_range]
  cases found : r.get? h with
  | none => simp
  | some m => simp [get?_eq_some_lt found]

theorem Grows.missing_subset (grows : r.Grows r') : r'.missing scope ⊆ r.missing scope := by
  intro name mem
  obtain ⟨mem, absent⟩ := Finset.mem_filter.1 mem
  exact Finset.mem_filter.2 ⟨mem, grows.absent absent⟩

/-- Linking that leaves nothing unfinished leaves no more work than there was. -/
theorem Leaves.work_le (leaves : r.Leaves names r' fun _ => False) (grows : r.Grows r') :
    r'.work scope ≤ r.work scope := by
  have pending : r'.pending ⊆ r.pending := by
    intro h mem
    rw [mem_pending] at mem ⊢
    cases found : r.get? h with
    | none => exact (leaves.added found mem).elim
    | some m => exact ⟨m, found, mem.origin grows.advances found⟩
  have := Finset.card_le_card pending
  have missing : r'.missing scope ⊆ r.missing scope := grows.missing_subset
  have := Finset.card_le_card missing
  unfold work
  omega

/-- To enter a compiled module is work done. -/
theorem work_mark {h : Handle} {m : Registered} (found : r.get? h = some m)
    (compiled : m.status = .compiled) : (r.setStatus h .linking).work scope < r.work scope := by
  have missing : (r.setStatus h .linking).missing scope = r.missing scope := by
    unfold Registry.missing
    apply Finset.filter_congr
    intro name _
    rw [find?_setStatus]
  have pending : (r.setStatus h .linking).pending ⊂ r.pending := by
    have marked : ∀ {k}, (r.setStatus h .linking).Compiled k → k ≠ h ∧ r.Compiled k := by
      intro k ⟨n, hk, status⟩
      obtain ⟨-, rfl⟩ | ⟨other, hk'⟩ := get?_update_eq_some found hk
      · cases status
      · exact ⟨other, n, hk', status⟩
    apply (Finset.ssubset_iff_of_subset ?_).2
    · refine ⟨h, mem_pending.2 ⟨m, found, compiled⟩, ?_⟩
      intro mem
      exact (marked (mem_pending.1 mem)).1 rfl
    · intro k mem
      exact mem_pending.2 (marked (mem_pending.1 mem)).2
  have := Finset.card_lt_card pending
  unfold work
  rw [missing]
  omega

/-- To register a name is work done. -/
theorem work_add {m : Registered} (adds : r.Adds m r') (grows : r.Grows r')
    (mem : m.module.name ∈ scope) (absent : r.find? m.module.name = none) :
    r'.work scope < r.work scope := by
  have missing : r'.missing scope ⊂ r.missing scope := by
    apply (Finset.ssubset_iff_of_subset grows.missing_subset).2
    refine ⟨m.module.name, Finset.mem_filter.2 ⟨mem, absent⟩, ?_⟩
    intro mem'
    have absent' := (Finset.mem_filter.1 mem').2
    rw [adds.find?, if_pos rfl] at absent'
    cases absent'
  have pending : r'.pending ⊆ insert r.count r.pending := by
    intro k mem
    obtain ⟨n, found, status⟩ := mem_pending.1 mem
    rw [adds.get?] at found
    by_cases new : k = r.count
    · exact Finset.mem_insert.2 (Or.inl new)
    · rw [if_neg new] at found
      exact Finset.mem_insert.2 (Or.inr (mem_pending.2 ⟨n, found, status⟩))
  have := Finset.card_lt_card missing
  have := (Finset.card_le_card pending).trans (Finset.card_insert_le _ _)
  unfold work
  omega

end Registry

-- ---------------------------------------------------------------------------
-- Linking
-- ---------------------------------------------------------------------------

namespace Linking

open Registry

variable {σ ε : Type} {host : Host σ ε} {States : σ → Prop} {names : String → String → String}
  {offers : String → Module → Prop} {scope : Finset String}

theorem Required.confined {asked : σ} {name : String} {s t : Linking σ} {found : Except ε Handle}
    (required : Required host offers asked name s t found) (indexed : s.registry.Indexed)
    (confined : Confined names offers scope s.registry) :
    Confined names offers scope t.registry := by
  cases required with
  | found _ same => exact same ▸ confined
  | failed _ same _ => rwa [same]
  | added absent named offered adds _ =>
    exact confined.add indexed adds (by rw [named]; exact absent) (by rw [named]; exact offered)

theorem Required.work_le {asked : σ} {name : String} {s t : Linking σ} {found : Except ε Handle}
    (required : Required host offers asked name s t found) (mem : name ∈ scope) :
    t.registry.work scope ≤ s.registry.work scope := by
  have grows := required.grows
  cases required with
  | found _ same => rw [same]
  | failed _ same _ => rw [same]
  | added absent named _ adds _ =>
    rw [← named] at mem absent
    exact (work_add adds grows mem absent).le

/-- Linking that succeeds stays among the names of the set. -/
theorem confined_cases (supplies : host.Supplies States names offers) (scope : Finset String) :
    Cases host
      (fun _ s result s' => s.InStep States → Confined names offers scope s.registry →
        result = .ok () → Confined names offers scope s'.registry)
      (fun _ _ s result s' => s.InStep States → Confined names offers scope s.registry →
        ∀ hs, result = .ok hs → Confined names offers scope s'.registry) := by
  refine ⟨?_, ?_, ?_, ?_, ?_, ?_, ?_, ?_, ?_⟩
  · -- unknown
    intro h s _ _ _ ok
    cases ok
  · -- settled
    intro h s m _ _ _ confined _
    exact confined
  · -- failed
    intro h s m e t _ _ _ _ _ _ ok
    cases ok
  · -- done
    intro h s m dependencies t _ _ _ within steady confined _
    have confined' := within (steady.marked h) (confined.update h fun _ => nofun)
    exact (confined' dependencies rfl).update h fun _ => nofun
  · -- nil
    intro base s _ confined _ _
    exact confined
  · -- missing
    intro base request requests s cause t _ _ _ hs ok
    cases ok
  · -- blocked
    intro base request requests s h t e u _ _ _ _ _ hs ok
    cases ok
  · -- stopped
    intro base request requests s h t u e v _ _ _ _ _ _ _ hs ok
    cases ok
  · -- cons
    intro base request requests s h t u hs v run links visit linksAll rest steady confined _ _
    obtain ⟨steady', _, -, found⟩ := required supplies steady run
    obtain ⟨steady'', -⟩ := (grows_cases supplies).links links steady'
    exact rest steady'' (visit steady' (found.confined steady.indexed confined) rfl) hs rfl

/-- The requests of a module can be gone through, if every module that they lead to can be linked
with less work to be done than `bound`. -/
theorem linksAll_ends (supplies : host.Supplies States names offers) {bound : Nat}
    (visits : ∀ {h s}, s.registry.work scope < bound → s.InStep States →
      Confined names offers scope s.registry →
      (∀ m, s.registry.get? h = some m → m.status = .compiled →
        ∀ name ∈ m.module.imports names, name ∈ scope) →
      ∃ result s', Links host h s result s')
    {base : String} {requests : List String} {s : Linking σ}
    (work : s.registry.work scope < bound) (steady : s.InStep States)
    (confined : Confined names offers scope s.registry)
    (within : ∀ name ∈ requests.map (names base), name ∈ scope) :
    ∃ result s', LinksAll host base requests s result s' := by
  induction requests generalizing s with
  | nil => exact ⟨.ok [], s, 0, rfl⟩
  | cons request requests ih =>
    cases run : require host base request s with
    | mk found t =>
      obtain ⟨steady', _, -, required⟩ := required supplies steady run
      have confined' := required.confined steady.indexed confined
      cases found with
      | error cause =>
        refine ⟨.error (.host cause), t, 0, ?_⟩
        simp only [linkRequests, run]
      | ok h =>
        have work' := (required.work_le (within _ List.mem_cons_self)).trans_lt work
        obtain ⟨result, u, links⟩ := visits work' steady' confined' fun m found compiled =>
          confined'.registered (within _ List.mem_cons_self) required.find? found compiled
        apply exists_linksAll_cons run links
        intro ok
        rw [ok] at links
        obtain ⟨steady'', grows⟩ := (grows_cases supplies).links links steady'
        obtain ⟨leaves, -⟩ := (leaves_cases supplies).links links steady'
        have leaves' := leaves.mono fun k blamed => Blamed.ok blamed
        apply ih ((leaves'.work_le grows).trans_lt work') steady''
        · exact (confined_cases supplies scope).links links steady' confined' rfl
        · intro name mem
          exact within name (List.mem_cons_of_mem _ mem)

/-- A module can be linked if what it leads to is among finitely many names. -/
theorem links_ends (supplies : host.Supplies States names offers) {h : Handle} {s : Linking σ}
    (steady : s.InStep States) (confined : Confined names offers scope s.registry)
    (within : ∀ m, s.registry.get? h = some m → m.status = .compiled →
      ∀ name ∈ m.module.imports names, name ∈ scope) :
    ∃ result s', Links host h s result s' := by
  induction hwork : s.registry.work scope using Nat.strong_induction_on generalizing s h with
  | _ bound ih =>
    cases found : s.registry.get? h with
    | none => exact ⟨.error (.unknownHandle h), s, 0, link_unknown found⟩
    | some m =>
      by_cases compiled : m.status = .compiled
      · have visits : ∀ {h s}, s.registry.work scope < bound → s.InStep States →
            Confined names offers scope s.registry →
            (∀ m, s.registry.get? h = some m → m.status = .compiled →
              ∀ name ∈ m.module.imports names, name ∈ scope) →
            ∃ result s', Links host h s result s' :=
          fun less steady confined within => ih _ less steady confined within rfl
        have less : (s.marked h).registry.work scope < s.registry.work scope :=
          work_mark found compiled
        rw [hwork] at less
        obtain ⟨result, t, depth, run⟩ := linksAll_ends supplies visits (s := s.marked h) less
          (steady.marked h) (confined.update h fun _ => nofun) (within m found compiled)
        cases result with
        | error e => exact ⟨_, _, depth + 1, link_failed found compiled run⟩
        | ok dependencies => exact ⟨_, _, depth + 1, link_done found compiled run⟩
      · exact ⟨.ok (), s, 0, link_settled found compiled⟩

/-- Linking ends if it can reach finitely many names. -/
theorem links_of_finite (supplies : host.Supplies States names offers) {root : Handle}
    {s : Linking σ} (steady : s.InStep States)
    (finite : {name | InReach names offers s.registry root name}.Finite) :
    ∃ result s', Links host root s result s' := by
  have mem : ∀ {name}, name ∈ finite.toFinset ↔ InReach names offers s.registry root name :=
    finite.mem_toFinset
  have confined : Confined names offers finite.toFinset s.registry := by
    refine ⟨?_, ?_⟩
    · intro name h m reached named found compiled next imported
      exact mem.2 (.registered (mem.1 reached) named found compiled imported)
    · intro name m reached absent offered next imported
      exact mem.2 (.offered (mem.1 reached) absent offered imported)
  apply links_ends supplies steady confined
  intro m found compiled name imported
  exact mem.2 (.root found compiled imported)

-- ---------------------------------------------------------------------------
-- What a linking asks for
-- ---------------------------------------------------------------------------

/-- What a host was asked for is what the traversal from a module first meets, name by name and none
twice. If a load failed, it was the last one, and the linking failed for its cause. -/
structure Asked (names : String → String → String) (before after : Registry) (root : Handle)
    (result : Except (LinkError ε) Unit) (log : Log ε) : Prop where
  order : log.map Prod.fst = metFrom names before after root
  once : (log.map Prod.fst).Nodup
  failed : ∀ name cause, (name, .error cause) ∈ log →
    log.getLast? = some (name, .error cause) ∧ result = .error (.host cause)
  refused : ∀ cause, result = .error (.host cause) →
    ∃ name, log.getLast? = some (name, .error cause)

/-- From the traversal and the log to what was asked for. -/
theorem asked_of_loaded {root : Handle} {s s' : Linking (σ × Log ε)}
    {result : Except (LinkError ε) Unit} {log : Log ε} (loaded : Loaded s s' result log)
    (order : log.map Prod.fst = metFrom names s.registry s'.registry root) :
    Asked names s.registry s'.registry root result log := by
  refine ⟨order, loaded.once, ?_, ?_⟩
  · intro name cause mem
    cases result with
    | ok =>
      obtain ⟨h, ok, -⟩ := loaded.done () rfl _ mem
      cases ok
    | error e =>
      obtain ⟨earlier, last, cause', rfl, rfl, done⟩ := loaded.failed e rfl
      cases List.mem_append.1 mem with
      | inl mem =>
        obtain ⟨h, ok⟩ := done _ mem
        cases ok
      | inr mem =>
        cases List.mem_singleton.1 mem
        exact ⟨List.getLast?_concat, rfl⟩
  · intro cause failed
    obtain ⟨earlier, name, cause', rfl, same, -⟩ := loaded.failed _ failed
    cases same
    exact ⟨name, List.getLast?_concat⟩

theorem links_asked (supplies : host.Supplies States names offers) {root : Handle} {r : Registry}
    (indexed : r.Indexed) {state : σ} (hstate : States state) {result : Except (LinkError ε) Unit}
    {s' : Linking (σ × Log ε)} (links : Links host.logged root ⟨r, (state, [])⟩ result s') :
    Asked names r s'.registry root result s'.host.2 := by
  cases found : r.get? root with
  | none =>
    obtain ⟨rfl, rfl⟩ := links.unique ⟨0, link_unknown found⟩
    refine ⟨?_, List.nodup_nil, nofun, nofun⟩
    unfold metFrom toOpen
    simp only [found, List.map_nil]
  | some m =>
    obtain ⟨log, loaded⟩ := (loaded_cases supplies).links links ⟨hstate, indexed⟩ ⟨m, found⟩
    obtain ⟨-, grows⟩ := (grows_cases supplies.logged).links links ⟨hstate, indexed⟩
    have appended := loaded.appended
    rw [List.nil_append] at appended
    rw [← appended] at loaded
    apply asked_of_loaded loaded
    have start := Frontier.start grows.extends
    have opens := start.toOpen found
    unfold metFrom
    by_cases compiled : m.status = .compiled
    · rw [if_pos compiled] at opens
      have met := (meets_cases supplies indexed s'.registry).links links ⟨hstate, indexed⟩ found
        compiled (start.mark found) ⟨.refl _, fun _ _ absent => absent⟩
      rw [opens]
      exact met.order (List.nil_append _).symm
    · rw [if_neg compiled] at opens
      obtain ⟨-, rfl⟩ := links.unique ⟨0, link_settled found compiled⟩
      rw [opens]
      rfl

/-- Linking a module through a host that supplies names. However it ends, the host was asked for the
names that were not registered in the order in which a traversal first meets them that starts at the
module, takes imports in the order of requests, and opens compiled modules only; for no name twice;
and if a load failed, that was the last one, and the linking failed for its cause. It does end, if
finitely many names can be reached. The registry may be any whose index is in step, as it is in all
that calls lead to. -/
theorem link_loads (supplies : host.Supplies States names offers) (root : Handle) (r : Registry)
    (indexed : r.Indexed) {state : σ} (hstate : States state) :
    (∀ depth result s', link host depth root ⟨r, state⟩ = some (result, s') →
      ∃ log, link host.logged depth root ⟨r, (state, [])⟩ =
          some (result, ⟨s'.registry, (s'.host, log)⟩) ∧
        Asked names r s'.registry root result log) ∧
    ({name | InReach names offers r root name}.Finite →
      ∃ depth result s', ∀ depth', depth ≤ depth' →
        link host depth' root ⟨r, state⟩ = some (result, s')) := by
  refine ⟨?_, ?_⟩
  · intro depth result s' run
    have alike : Alike (fun s t => t.registry = s.registry ∧ t.host.1 = s.host)
        (link host depth root ⟨r, state⟩) (link host.logged depth root ⟨r, (state, [])⟩) :=
      (logged_simulates host).link ⟨rfl, rfl⟩
    rw [run] at alike
    generalize logged : link host.logged depth root ⟨r, (state, [])⟩ = outcome at alike
    cases alike with
    | @ended _ _ t same =>
      obtain ⟨registry, host'⟩ := same
      refine ⟨t.host.2, by rw [← registry, ← host'], ?_⟩
      rw [← registry]
      exact links_asked supplies indexed hstate ⟨depth, logged⟩
  · intro finite
    obtain ⟨result, s', depth, run⟩ :=
      links_of_finite supplies (s := ⟨r, state⟩) ⟨hstate, indexed⟩ finite
    exact ⟨depth, result, s', fun depth' le => link_mono le run⟩

/-- The module `a` imports `b`, which imports `a`, and `c`, which imports something that is nowhere. -/
theorem link_loads_cycle :
    let a : Module := ⟨"a", ⟨["b", "c"], [], []⟩, ⟨[], []⟩⟩
    let b : Module := ⟨"b", ⟨["a"], [], []⟩, ⟨[], []⟩⟩
    let c : Module := ⟨"c", ⟨["b", "missing"], [], []⟩, ⟨[], []⟩⟩
    let host := Host.stocked [c, b]
    let r : Registry := ⟨[⟨a, .compiled, [], []⟩], [("a", 0)]⟩
    let after : Registry :=
      ⟨[⟨a, .compiled, [], []⟩, ⟨b, .linked, [0], []⟩, ⟨c, .compiled, [], []⟩],
        [("a", 0), ("b", 1), ("c", 2)]⟩
    r.Indexed ∧
    host.Supplies (fun _ => True) (fun _ specifier => specifier) (fun _ m => m ∈ [c, b]) ∧
    {name | InReach (fun _ specifier => specifier) (fun _ m => m ∈ [c, b]) r 0 name}.Finite ∧
    link host 3 0 ⟨r, ()⟩ = some (.error (.host "missing"), ⟨after, ()⟩) ∧
    (∃ log, log.map Prod.fst = ["b", "c", "missing"] ∧
      Asked (fun _ specifier => specifier) r after 0 (.error (.host "missing")) log) ∧
    ∃ depth result s', ∀ depth', depth ≤ depth' → link host depth' 0 ⟨r, ()⟩ = some (result, s') := by
  intro a b c host r after
  have supplies := Host.stocked_supplies [c, b]
  have finite : {name | InReach (fun _ specifier => specifier) (fun _ m => m ∈ [c, b])
      r 0 name}.Finite := inReach_finite r 0 id
  have indexed : r.Indexed := Indexed.empty.register a
  have run : link host 3 0 ⟨r, ()⟩ = some (.error (.host "missing"), ⟨after, ()⟩) := rfl
  obtain ⟨asked, ends⟩ := link_loads supplies 0 r indexed trivial
  obtain ⟨log, logged, asked⟩ := asked 3 _ _ run
  refine ⟨indexed, supplies, finite, run, ⟨log, ?_, asked⟩, ends finite⟩
  cases logged
  rfl

end Linking

end Esm
