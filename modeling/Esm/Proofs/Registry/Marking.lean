-- SUMMARY: Marking modules as evaluated reaches exactly what they depend on, directly or not.
import Esm.Proofs.Registry.Dependencies

/-!
# Marking

Modules are marked as evaluated from a list of those that are still to be marked. What this changes
is the status of modules that the list reaches through dependencies, and nothing else. In the end
everything on the list is evaluated, and so is all that evaluated modules depend on.
-/

namespace Esm.Registry

/-- One module lists another among its dependencies. -/
def Depends (r : Registry) (h d : Handle) : Prop := ∃ m, r.get? h = some m ∧ d ∈ m.dependencies

/-- One module is another, or depends on it directly or through others. -/
abbrev Reaches (r : Registry) : Handle → Handle → Prop := Relation.ReflTransGen r.Depends

/-- What marking does to a registry: some modules that the list reaches become evaluated. -/
structure Marks (r : Registry) (pending : List Handle) (r' : Registry) : Prop where
  absent : ∀ {k}, r.get? k = none → r'.get? k = none
  kept : ∀ {k m}, r.get? k = some m → ∃ status, r'.get? k = some { m with status := status } ∧
    (status = m.status ∨ status = .evaluated ∧ ∃ h ∈ pending, r.Reaches h k)

/-- What evaluated modules depend on is evaluated, or is on the list of those to be marked. -/
def Covered (r : Registry) (pending : List Handle) : Prop :=
  ∀ ⦃h m d n⦄, r.get? h = some m → m.status = .evaluated → d ∈ m.dependencies →
    r.get? d = some n → n.status = .evaluated ∨ d ∈ pending

-- ---------------------------------------------------------------------------
-- Marks
-- ---------------------------------------------------------------------------

theorem Marks.refl (r : Registry) (pending : List Handle) : r.Marks pending r :=
  ⟨id, fun {_ m} found => ⟨m.status, found, Or.inl rfl⟩⟩

/-- Behind marks a module is what it was, its status apart. -/
theorem Marks.origin {r r' : Registry} {pending : List Handle} (marks : r.Marks pending r')
    {k : Handle} {m' : Registered} (found : r'.get? k = some m') :
    ∃ m, r.get? k = some m ∧ m' = { m with status := m'.status } ∧
      (m'.status = m.status ∨ m'.status = .evaluated ∧ ∃ h ∈ pending, r.Reaches h k) := by
  cases before : r.get? k with
  | none =>
    rw [marks.absent before] at found
    cases found
  | some m =>
    obtain ⟨status, found', why⟩ := marks.kept before
    rw [found] at found'
    cases found'
    exact ⟨m, rfl, rfl, why⟩

/-- Marks leave dependencies alone. -/
theorem Marks.depends {r r' : Registry} {pending : List Handle} (marks : r.Marks pending r')
    {h d : Handle} : r'.Depends h d ↔ r.Depends h d := by
  constructor
  · rintro ⟨m', found', mem⟩
    obtain ⟨m, found, same, -⟩ := marks.origin found'
    rw [same] at mem
    exact ⟨m, found, mem⟩
  · rintro ⟨m, found, mem⟩
    obtain ⟨status, found', -⟩ := marks.kept found
    exact ⟨_, found', mem⟩

theorem Marks.reaches {r r' : Registry} {pending : List Handle} (marks : r.Marks pending r')
    {h d : Handle} : r'.Reaches h d ↔ r.Reaches h d := by
  have same : r'.Depends = r.Depends := by
    funext h d
    exact propext marks.depends
  unfold Reaches
  rw [same]

theorem marks_setStatus {r : Registry} {h : Handle} {pending : List Handle} (mem : h ∈ pending) :
    r.Marks pending (r.setStatus h .evaluated) := by
  refine ⟨?_, ?_⟩
  · intro k absent
    unfold setStatus
    rw [get?_update, absent]
    exact ite_self _
  · intro k m found
    unfold setStatus
    rw [get?_update, found]
    by_cases same : k = h
    · subst same
      rw [if_pos rfl]
      exact ⟨.evaluated, rfl, Or.inr ⟨rfl, k, mem, .refl⟩⟩
    · rw [if_neg same]
      exact ⟨m.status, rfl, Or.inl rfl⟩

/-- Marks from another list, all of which the first one reaches. -/
theorem Marks.trans {r r' r'' : Registry} {pending next : List Handle}
    (first : r.Marks pending r') (second : r'.Marks next r'')
    (reached : ∀ k ∈ next, ∃ h ∈ pending, r.Reaches h k) : r.Marks pending r'' := by
  refine ⟨fun absent => second.absent (first.absent absent), ?_⟩
  intro k m found
  obtain ⟨status, found', why⟩ := first.kept found
  obtain ⟨status', found'', why'⟩ := second.kept found'
  refine ⟨status', found'', ?_⟩
  rcases why' with rfl | ⟨rfl, d, mem, reaches⟩
  · exact why
  · obtain ⟨h, mem', reaches'⟩ := reached d mem
    exact Or.inr ⟨rfl, h, mem', reaches'.trans (first.reaches.1 reaches)⟩

theorem markEvaluated_marks (r : Registry) (pending : List Handle) :
    r.Marks pending (r.markEvaluated pending) := by
  have rest : ∀ {r : Registry} {h k : Handle} {pending : List Handle}, k ∈ pending →
      ∃ h' ∈ h :: pending, r.Reaches h' k :=
    fun {_ _ k _} mem => ⟨k, List.mem_cons_of_mem _ mem, .refl⟩
  fun_induction Registry.markEvaluated r pending with
  | case1 r => exact .refl r []
  | case2 r h pending absent ih => exact (Marks.refl r _).trans ih fun _ mem => rest mem
  | case3 r h pending m found evaluated ih => exact (Marks.refl r _).trans ih fun _ mem => rest mem
  | case4 r h pending m found fresh ih =>
    apply (marks_setStatus List.mem_cons_self).trans ih
    intro k mem
    rcases List.mem_append.1 mem with mem | mem
    · exact ⟨h, List.mem_cons_self, .single ⟨m, found, mem⟩⟩
    · exact rest mem

-- ---------------------------------------------------------------------------
-- What is evaluated in the end
-- ---------------------------------------------------------------------------

/-- An evaluated module stays evaluated while others are marked. -/
theorem Marks.evaluated {r r' : Registry} {pending : List Handle} (marks : r.Marks pending r')
    {k : Handle} {m m' : Registered} (found : r.get? k = some m) (evaluated : m.status = .evaluated)
    (found' : r'.get? k = some m') : m'.status = .evaluated := by
  obtain ⟨status, kept, why⟩ := marks.kept found
  rw [found'] at kept
  cases kept
  rcases why with rfl | ⟨rfl, -⟩
  · exact evaluated
  · rfl

theorem markEvaluated_pending {r : Registry} {pending : List Handle} {k : Handle} {m : Registered}
    (mem : k ∈ pending) (found : (r.markEvaluated pending).get? k = some m) :
    m.status = .evaluated := by
  fun_induction Registry.markEvaluated r pending with
  | case1 r => cases mem
  | case2 r h pending absent ih =>
    rcases List.mem_cons.1 mem with rfl | mem
    · rw [(markEvaluated_marks r pending).absent absent] at found
      cases found
    · exact ih mem found
  | case3 r h pending m' before evaluated ih =>
    rcases List.mem_cons.1 mem with rfl | mem
    · exact (markEvaluated_marks r pending).evaluated before evaluated found
    · exact ih mem found
  | case4 r h pending m' before fresh ih =>
    rcases List.mem_cons.1 mem with rfl | mem
    · have marked : (r.setStatus k .evaluated).get? k = some { m' with status := .evaluated } := by
        unfold setStatus
        rw [get?_update, if_pos rfl, before]
        rfl
      exact (markEvaluated_marks _ _).evaluated marked rfl found
    · exact ih (List.mem_append_right _ mem) found

theorem Covered.markEvaluated {r : Registry} {pending : List Handle} (covered : r.Covered pending) :
    (r.markEvaluated pending).Covered [] := by
  fun_induction Registry.markEvaluated r pending with
  | case1 r => exact covered
  | case2 r h pending absent ih =>
    apply ih
    intro k n d n' hk status mem hd
    rcases covered hk status mem hd with evaluated | mem
    · exact Or.inl evaluated
    · rcases List.mem_cons.1 mem with rfl | mem
      · rw [absent] at hd
        cases hd
      · exact Or.inr mem
  | case3 r h pending m found evaluated ih =>
    apply ih
    intro k n d n' hk status mem hd
    rcases covered hk status mem hd with evaluated' | mem
    · exact Or.inl evaluated'
    · rcases List.mem_cons.1 mem with rfl | mem
      · rw [found] at hd
        cases hd
        exact Or.inl evaluated
      · exact Or.inr mem
  | case4 r h pending m found fresh ih =>
    apply ih
    intro k n d n' hk status mem hd
    -- the module just marked depends on what was put on the list for it
    rcases get?_update_eq_some found hd with ⟨rfl, rfl⟩ | ⟨other, hd'⟩
    · exact Or.inl rfl
    · rcases get?_update_eq_some found hk with ⟨rfl, rfl⟩ | ⟨-, hk'⟩
      · exact Or.inr (List.mem_append_left _ mem)
      · rcases covered hk' status mem hd' with evaluated | mem
        · exact Or.inl evaluated
        · rcases List.mem_cons.1 mem with rfl | mem
          · exact absurd rfl other
          · exact Or.inr (List.mem_append_right _ mem)

theorem Sound.covered {r : Registry} (sound : r.Sound) (pending : List Handle) :
    r.Covered pending :=
  fun _ _ _ _ found status mem found' => Or.inl (sound.closed found status mem found')

/-- What an evaluated module reaches is evaluated. -/
theorem Covered.reaches {r : Registry} (covered : r.Covered []) {h k : Handle}
    (reaches : r.Reaches h k) {m n : Registered} (found : r.get? h = some m)
    (evaluated : m.status = .evaluated) (found' : r.get? k = some n) : n.status = .evaluated := by
  induction reaches generalizing n with
  | refl =>
    rw [found] at found'
    cases found'
    exact evaluated
  | tail _ depends ih =>
    obtain ⟨m', middle, mem⟩ := depends
    rcases covered middle (ih middle) mem found' with evaluated | mem
    · exact evaluated
    · cases mem

/-- Marking a module evaluates all that it reaches. -/
theorem Sound.reaches_evaluated {r : Registry} (sound : r.Sound) {h d : Handle} {m : Registered}
    (found : r.get? h = some m) (reaches : r.Reaches h d) :
    ∃ n, (r.markEvaluated [h]).get? d = some n ∧ n.status = .evaluated := by
  have marks := markEvaluated_marks r [h]
  obtain ⟨status, first, -⟩ := marks.kept found
  have present : ∃ n, r.get? d = some n := by
    rcases reaches.cases_tail with rfl | ⟨k, -, m', found', mem⟩
    · exact ⟨m, found⟩
    · exact sound.present found' mem
  obtain ⟨n, before⟩ := present
  obtain ⟨status', after, -⟩ := marks.kept before
  refine ⟨_, after, ?_⟩
  have covered := Covered.markEvaluated (sound.covered [h])
  exact covered.reaches (marks.reaches.2 reaches) first
    (markEvaluated_pending List.mem_cons_self first) after

/-- Marking modules keeps what holds of dependencies. -/
theorem Sound.markEvaluated {r : Registry} (sound : r.Sound) (pending : List Handle) :
    (r.markEvaluated pending).Sound := by
  have marks := markEvaluated_marks r pending
  refine ⟨?_, ?_, ?_, ?_, ?_⟩
  · intro h m found status
    obtain ⟨m₀, found₀, same, why⟩ := marks.origin found
    rcases why with why | ⟨why, -⟩
    · have none := sound.unlinked found₀ (why ▸ status)
      rw [same]
      exact none
    · rw [why] at status
      rcases status with status | status <;> cases status
  · intro h m found status
    obtain ⟨m₀, found₀, same, why⟩ := marks.origin found
    rcases why with why | ⟨why, -⟩
    · have resolved := sound.linked found₀ (why ▸ status)
      rw [same]
      exact resolved
    · rw [why] at status
      cases status
  · intro h m found _
    obtain ⟨m₀, found₀, same, -⟩ := marks.origin found
    have either : m₀.Resolved ∨ m₀.dependencies = [] := by
      cases before : m₀.status with
      | compiled => exact Or.inr (sound.unlinked found₀ (Or.inl before))
      | linking => exact Or.inr (sound.unlinked found₀ (Or.inr before))
      | linked => exact Or.inl (sound.linked found₀ before)
      | evaluated => exact sound.evaluated found₀ before
    rw [same]
    exact either
  · intro h m d found mem
    obtain ⟨m₀, found₀, same, -⟩ := marks.origin found
    rw [same] at mem
    obtain ⟨n, hn⟩ := sound.present found₀ mem
    obtain ⟨status, hn', -⟩ := marks.kept hn
    exact ⟨_, hn'⟩
  · intro h m d n found status mem hn
    have covered := Covered.markEvaluated (sound.covered pending)
    rcases covered found status mem hn with evaluated | mem
    · exact evaluated
    · cases mem

end Esm.Registry
