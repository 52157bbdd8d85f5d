-- SUMMARY: Tables of values by name.

/-!
# Tables

A table holds one value for each of its keys, in the order in which the keys were first defined.
-/

namespace Esm

/-- Values by name. -/
abbrev Table (α : Type) := List (String × α)

namespace Table

variable {α : Type}

/-- Define a key, or give it another value. -/
def define (table : Table α) (key : String) (value : α) : Table α :=
  match table with
  | [] => [(key, value)]
  | (k, v) :: rest => if k = key then (key, value) :: rest else (k, v) :: define rest key value

theorem lookup_define (table : Table α) (key other : String) (value : α) :
    (table.define key value).lookup other =
      if other = key then some value else table.lookup other := by
  induction table with
  | nil =>
    by_cases h : other = key
    · simp [define, h]
    · have : (other == key) = false := by simpa using h
      simp [define, List.lookup_cons, h, this]
  | cons p rest ih =>
    obtain ⟨k, v⟩ := p
    simp only [define]
    by_cases same : k = key
    · subst same
      by_cases h : other = k
      · simp [h]
      · have : (other == k) = false := by simpa using h
        simp [List.lookup_cons, h, this]
    · by_cases h : other = k
      · subst h
        simp [same]
      · have : (other == k) = false := by simpa using h
        simp [same, List.lookup_cons, this, ih]

end Table

end Esm
