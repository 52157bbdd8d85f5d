-- SUMMARY: Depth-first order told from what names import alone, and the first name in it that has no module.
import Mathlib.Data.Set.Card
import Esm.Proofs.Registry.Termination

/-!
# Depth-first order

Let it be given what the module of each name imports, and for which names there is a module at all.
A depth-first traversal meets names in an order that depends on nothing else, and ends at the first
one that has no module. Linking goes through names in this order, if the names of modules that were
linked before count as met already. Where what is linked imports only what is linked, it makes no
difference whether they do: the first name without a module is the same.
-/

namespace Esm

/-- A traversal of the names `pending`, once the names `opened` have been met. It meets `met`, in
this order, each before what it imports, and then, unless it gets to the end, a name that has no
module. -/
inductive DepthFirst (imports : String → Option (List String)) :
    (opened : Set String) → (pending met : List String) → (missing : Option String) → Prop where
  | done {opened : Set String} : DepthFirst imports opened [] [] none
  | passed {opened : Set String} {name : String} {pending met : List String}
    {missing : Option String} : name ∈ opened → DepthFirst imports opened pending met missing →
    DepthFirst imports opened (name :: pending) met missing
  | opens {opened : Set String} {name : String} {pending more met : List String}
    {missing : Option String} : name ∉ opened → imports name = some more →
    DepthFirst imports (insert name opened) (more ++ pending) met missing →
    DepthFirst imports opened (name :: pending) (name :: met) missing
  | stuck {opened : Set String} {name : String} {pending : List String} :
    name ∉ opened → imports name = none →
    DepthFirst imports opened (name :: pending) [] (some name)

namespace DepthFirst

variable {imports : String → Option (List String)} {opened closed : Set String}
  {pending met met' : List String} {missing missing' : Option String}

/-- There is one order. -/
theorem unique (first : DepthFirst imports opened pending met missing)
    (second : DepthFirst imports opened pending met' missing') :
    met = met' ∧ missing = missing' := by
  induction first generalizing met' with
  | done =>
    cases second
    exact ⟨rfl, rfl⟩
  | passed mem _ ih =>
    cases second with
    | passed _ rest => exact ih rest
    | opens fresh => exact absurd mem fresh
    | stuck fresh => exact absurd mem fresh
  | opens fresh has _ ih =>
    cases second with
    | passed mem => exact absurd mem fresh
    | opens _ has' rest =>
      cases has.symm.trans has'
      obtain ⟨rfl, same⟩ := ih rest
      exact ⟨rfl, same⟩
    | stuck _ lacks => cases has.symm.trans lacks
  | stuck fresh lacks =>
    cases second with
    | passed mem => exact absurd mem fresh
    | opens _ has => cases has.symm.trans lacks
    | stuck => exact ⟨rfl, rfl⟩

/-- The names met are others than those before, and have modules. -/
theorem of_mem (order : DepthFirst imports opened pending met missing) {name : String}
    (mem : name ∈ met) : name ∉ opened ∧ ∃ more, imports name = some more := by
  induction order with
  | done => cases mem
  | passed _ _ ih => exact ih mem
  | opens fresh has _ ih =>
    cases List.mem_cons.1 mem with
    | inl same => exact same ▸ ⟨fresh, _, has⟩
    | inr mem =>
      obtain ⟨later, has'⟩ := ih mem
      exact ⟨fun before => later (Set.mem_insert_of_mem _ before), has'⟩
  | stuck => cases mem

theorem lacks {name : String} (order : DepthFirst imports opened pending met (some name)) :
    imports name = none := by
  generalize end_ : some name = missing at order
  induction order with
  | done => cases end_
  | passed _ _ ih => exact ih end_
  | opens _ _ _ ih => exact ih end_
  | stuck _ lacks =>
    cases end_
    exact lacks

-- ---------------------------------------------------------------------------
-- Names that count as met
-- ---------------------------------------------------------------------------

/-- A traversal may go through these names first: some names of `closed` have been met then, and
whatever else is still to do comes afterwards. -/
def Through (imports : String → Option (List String)) (closed opened : Set String)
    (names : List String) : Prop :=
  ∃ between, opened ⊆ between ∧ between ⊆ closed ∪ opened ∧
    ∀ {pending met missing}, DepthFirst imports between pending met missing →
      ∃ more, DepthFirst imports opened (names ++ pending) (more ++ met) missing

variable {names names' : List String} {name : String}

theorem Through.nil : Through imports closed opened [] :=
  ⟨opened, subset_rfl, Set.subset_union_right, fun order => ⟨[], order⟩⟩

theorem Through.append (first : Through imports closed opened names)
    (second : ∀ between, opened ⊆ between → Through imports closed between names') :
    Through imports closed opened (names ++ names') := by
  obtain ⟨between, later, met, through⟩ := first
  obtain ⟨between', later', met', through'⟩ := second between later
  refine ⟨between', later.trans later', ?_, ?_⟩
  · exact met'.trans (Set.union_subset Set.subset_union_left met)
  · intro pending met missing order
    obtain ⟨more', order'⟩ := through' order
    obtain ⟨more, order''⟩ := through order'
    refine ⟨more ++ more', ?_⟩
    rw [List.append_assoc, List.append_assoc]
    exact order''

theorem Through.passed (mem : name ∈ opened) : Through imports closed opened [name] :=
  ⟨opened, subset_rfl, Set.subset_union_right, fun order => ⟨[], .passed mem order⟩⟩

theorem Through.opens {more : List String} (fresh : name ∉ opened) (has : imports name = some more)
    (mem : name ∈ closed) (inside : Through imports closed (insert name opened) more) :
    Through imports closed opened [name] := by
  obtain ⟨between, later, met, through⟩ := inside
  refine ⟨between, (Set.subset_insert _ _).trans later, ?_, ?_⟩
  · apply met.trans
    rw [Set.union_insert]
    exact Set.insert_subset (Or.inl mem) subset_rfl
  · intro pending met missing order
    obtain ⟨met', order'⟩ := through order
    exact ⟨name :: met', .opens fresh has order'⟩

/-- Names that import only each other, or what has been met, can be gone through at any time. -/
theorem through_closed {base : Set String} (finite : closed.Finite)
    (within : ∀ name ∈ closed, ∃ more, imports name = some more ∧
      ∀ next ∈ more, next ∈ closed ∪ base)
    (count : Nat) (left : (closed \ opened).ncard ≤ count) (later : base ⊆ opened)
    (mem : ∀ name ∈ names, name ∈ closed ∪ base) : Through imports closed opened names := by
  -- to meet a name leaves fewer of the closed ones for what it imports
  induction count using Nat.strong_induction_on generalizing opened names with
  | _ count fewer =>
    induction names generalizing opened with
    | nil => exact .nil
    | cons name names ih =>
      obtain ⟨first, rest⟩ := List.forall_mem_cons.1 mem
      have visit : Through imports closed opened [name] := by
        by_cases met : name ∈ opened
        · exact .passed met
        · have inside : name ∈ closed := first.resolve_right fun before => met (later before)
          obtain ⟨more, has, next⟩ := within name inside
          have less : (closed \ insert name opened).ncard < (closed \ opened).ncard := by
            refine Set.ncard_lt_ncard (Set.ssubset_iff_of_subset ?_ |>.2 ?_) finite.sdiff
            · exact Set.sdiff_subset_sdiff_right (Set.subset_insert _ _)
            · exact ⟨name, ⟨inside, met⟩, fun left => left.2 (Set.mem_insert _ _)⟩
          exact .opens met has inside (fewer _ (Nat.lt_of_lt_of_le less left) (Nat.le_refl _)
            (later.trans (Set.subset_insert _ _)) next)
      refine visit.append fun between grown => ih (Nat.le_trans ?_ left) (later.trans grown) rest
      exact Set.ncard_le_ncard (Set.sdiff_subset_sdiff_right grown) finite.sdiff

/-- Names that import only each other, or what has been met, may count as met: the first name
without a module is the same. -/
theorem of_closed (finite : closed.Finite)
    (within : ∀ name ∈ closed, ∃ more, imports name = some more ∧
      ∀ next ∈ more, next ∈ closed ∪ opened)
    (order : DepthFirst imports (closed ∪ opened) pending met missing) :
    ∃ all, DepthFirst imports opened pending all missing ∧ met.Sublist all := by
  -- `opened` grows on the way, but what is imported was in it from the start
  suffices ∀ {later}, opened ⊆ later → ∀ {counted}, counted = closed ∪ later →
      DepthFirst imports counted pending met missing →
      ∃ all, DepthFirst imports later pending all missing ∧ met.Sublist all from
    this subset_rfl rfl order
  clear order
  intro later grown counted same order
  induction order generalizing later with
  | done => exact ⟨[], .done, List.Sublist.slnil⟩
  | @passed _ name pending met missing mem _ ih =>
    rw [same] at mem
    by_cases before : name ∈ later
    · obtain ⟨all, order, sub⟩ := ih grown same
      exact ⟨all, .passed before order, sub⟩
    · have inside : ∀ next ∈ [name], next ∈ closed ∪ opened := by
        intro next here
        rw [List.mem_singleton.1 here]
        exact Or.inl (mem.resolve_right before)
      obtain ⟨between, grown', met', through⟩ :=
        through_closed finite within _ (Nat.le_refl _) grown inside
      have same' : closed ∪ later = closed ∪ between :=
        Set.Subset.antisymm (Set.union_subset_union_right _ grown')
          (Set.union_subset Set.subset_union_left met')
      obtain ⟨all, order, sub⟩ := ih (grown.trans grown') (same.trans same')
      obtain ⟨more, order'⟩ := through order
      exact ⟨more ++ all, order', sub.trans (List.sublist_append_right _ _)⟩
  | @opens _ name pending more met missing fresh has _ ih =>
    rw [same] at fresh
    obtain ⟨all, order, sub⟩ := ih (grown.trans (Set.subset_insert name _))
      (by rw [same, Set.union_insert])
    exact ⟨name :: all, .opens (fun mem => fresh (Or.inr mem)) has order, sub.cons_cons name⟩
  | @stuck _ name pending fresh lacks =>
    rw [same] at fresh
    exact ⟨[], .stuck (fun mem => fresh (Or.inr mem)) lacks, List.Sublist.slnil⟩

/-- The same for a traversal from one name, which the names that count as met may import as well. -/
theorem of_closed_root {root : String} (finite : closed.Finite)
    (within : ∀ name ∈ closed, ∃ more, imports name = some more ∧
      ∀ next ∈ more, next = root ∨ next ∈ closed)
    (order : DepthFirst imports closed [root] met missing) (fresh : root ∉ closed) :
    ∃ all, DepthFirst imports ∅ [root] all missing ∧ met.Sublist all := by
  cases order with
  | passed mem => exact absurd mem fresh
  | stuck _ lacks => exact ⟨[], .stuck (Set.notMem_empty root) lacks, List.Sublist.slnil⟩
  | @opens _ _ _ more met _ _ has order =>
    have within' : ∀ name ∈ closed, ∃ more, imports name = some more ∧ ∀ next ∈ more,
        next ∈ closed ∪ {root} := by
      intro name mem
      obtain ⟨more, has, next⟩ := within name mem
      exact ⟨more, has, fun other there => (next other there).symm⟩
    rw [← Set.union_singleton] at order
    obtain ⟨all, order, sub⟩ := of_closed finite within' order
    refine ⟨root :: all, .opens (Set.notMem_empty root) has ?_, sub.cons_cons root⟩
    rw [insert_empty_eq]
    exact order

end DepthFirst

-- ---------------------------------------------------------------------------
-- Registries
-- ---------------------------------------------------------------------------

namespace Registry

/-- The names that linking passes over: those of modules that are not merely compiled. -/
def passed (r : Registry) : Set String :=
  {name | ∃ h m, r.find? name = some h ∧ r.get? h = some m ∧ m.status ≠ .compiled}

/-- What the module of a name imports: the one that is registered, or else the one that there is in
`source`. -/
def importsOf (names : String → String → String) (source : String → Option Module) (r : Registry)
    (name : String) : Option (List String) :=
  match r.find? name with
  | some h => (r.get? h).map (·.module.imports names)
  | none => (source name).map (·.imports names)

theorem Indexed.finite_passed {r : Registry} (indexed : r.Indexed) : r.passed.Finite := by
  apply (List.finite_toSet (r.modules.map (·.module.name))).subset
  rintro name ⟨h, m, named, found, -⟩
  obtain ⟨_, found', rfl⟩ := indexed.named named
  exact List.mem_map.2 ⟨_, List.mem_of_getElem? found', rfl⟩

variable {names : String → String → String} {before after : Registry}

/-- The names of modules that the traversal by handles does not open. -/
def passedOver (before after : Registry) (opened : List Handle) : Set String :=
  {name | ∃ h, after.find? name = some h ∧ toOpen before after opened h = none}

theorem passedOver_cons (indexed : after.Indexed) {name : String} {h : Handle}
    (named : after.find? name = some h) (opened : List Handle) :
    passedOver before after (h :: opened) = insert name (passedOver before after opened) := by
  ext other
  unfold passedOver
  simp only [Set.mem_ofPred_eq, Set.mem_insert_iff, toOpen_cons]
  constructor
  · rintro ⟨k, found, passed⟩
    by_cases same : k = h
    · -- only one name means this handle
      obtain ⟨m, hm, rfl⟩ := indexed.named found
      obtain ⟨_, hm', rfl⟩ := indexed.named named
      rw [same] at hm
      cases hm.symm.trans hm'
      exact Or.inl rfl
    · rw [if_neg same] at passed
      exact Or.inr ⟨k, found, passed⟩
  · rintro (rfl | ⟨k, found, passed⟩)
    · exact ⟨h, named, if_pos rfl⟩
    · exact ⟨k, found, by rw [passed, ite_self]⟩

/-- When nothing has been opened, what is passed over is what linking passes over. -/
theorem passedOver_nil (extends_ : before.Extends after) (indexed : before.Indexed)
    (indexed' : after.Indexed) : passedOver before after [] = before.passed := by
  have start := Frontier.start extends_
  ext name
  constructor
  · rintro ⟨h, named, passed⟩
    obtain ⟨m', found', rfl⟩ := indexed'.named named
    cases found : before.get? h with
    | none =>
      unfold toOpen at passed
      simp [found', found] at passed
    | some m =>
      have past : m.status ≠ .compiled := by
        intro compiled
        rw [start.toOpen found, if_pos compiled] at passed
        cases passed
      obtain ⟨_, kept, same⟩ := extends_.kept found
      cases found'.symm.trans kept
      cases named₀ : before.find? m'.module.name with
      | none => exact absurd (congrArg Module.name same.symm) (indexed.find?_eq_none.1 named₀ h m found)
      | some k =>
        cases (extends_.named named₀).symm.trans named
        exact ⟨h, m, named₀, found, past⟩
  · rintro ⟨h, m, named, found, past⟩
    exact ⟨h, extends_.named named, by rw [start.toOpen found, if_neg past]⟩

/-- A module that is opened is not passed over, and imports what it does. -/
theorem opens_of_toOpen (indexed : after.Indexed) {imports : String → Option (List String)}
    (has : ∀ {name h m}, after.find? name = some h → after.get? h = some m →
      imports name = some (m.module.imports names))
    {opened : List Handle} {name : String} {h : Handle} {m : Module}
    (found : after.find? name = some h) (opens : toOpen before after opened h = some m) :
    name ∉ passedOver before after opened ∧ imports name = some (m.imports names) := by
  constructor
  · rintro ⟨k, found', passed⟩
    cases found.symm.trans found'
    cases opens.symm.trans passed
  · obtain ⟨m', hm, -⟩ := indexed.named found
    rw [has found hm]
    unfold toOpen at opens
    rw [hm] at opens
    dsimp only at opens
    split at opens
    · cases opens
    · split at opens
      · cases opens
        rfl
      · split at opens
        · cases opens
          rfl
        · cases opens

/-- The traversal by handles is one by names, if the names that it finds no module for have none. -/
theorem depthFirst_of_firstMet (indexed : after.Indexed) {imports : String → Option (List String)}
    (has : ∀ {name h m}, after.find? name = some h → after.get? h = some m →
      imports name = some (m.module.imports names))
    (opened : List Handle) (pending : List String)
    (lacks : ∀ name ∈ firstMet names before after opened pending,
      after.find? name = none → imports name = none) :
    ∃ met missing, DepthFirst imports (passedOver before after opened) pending met missing ∧
      firstMet names before after opened pending =
        met.filter (fun name => (before.find? name).isNone) ++ missing.toList := by
  fun_induction firstMet names before after opened pending with
  | case1 opened => exact ⟨[], none, .done, rfl⟩
  | case2 opened name pending absent =>
    refine ⟨[], some name, .stuck ?_ (lacks name List.mem_cons_self absent), rfl⟩
    rintro ⟨h, found, -⟩
    cases absent.symm.trans found
  | case3 opened name pending h found passed ih =>
    obtain ⟨met, missing, order, same⟩ := ih lacks
    exact ⟨met, missing, .passed ⟨h, found, passed⟩ order, same⟩
  | case4 opened name pending h found m opens rest unknown ih =>
    obtain ⟨fresh, more⟩ := opens_of_toOpen indexed has found opens
    obtain ⟨met, missing, order, same⟩ := ih fun next mem => lacks next (List.mem_cons_of_mem _ mem)
    rw [passedOver_cons indexed found] at order
    refine ⟨name :: met, missing, .opens fresh more order, ?_⟩
    rw [List.filter_cons_of_pos (by rw [unknown]; rfl), List.cons_append, ← same]
  | case5 opened name pending h found m opens rest known ih =>
    obtain ⟨fresh, more⟩ := opens_of_toOpen indexed has found opens
    obtain ⟨met, missing, order, same⟩ := ih lacks
    rw [passedOver_cons indexed found] at order
    refine ⟨name :: met, missing, .opens fresh more order, ?_⟩
    rw [List.filter_cons_of_neg (by simpa using known), ← same]

end Registry

end Esm
