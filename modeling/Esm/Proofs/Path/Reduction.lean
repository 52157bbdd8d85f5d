-- SUMMARY: The text of a reduced path is in lexical normal form, and its parts are the reduction of parts on a stack.
import Esm.Path.Reduced
import Esm.Proofs.Path.Parts

/-!
# Reduction

Reducing a path can be told on its parts alone, kept on a stack: a name is put on it, `..` takes a
name off, and where there is none to take it stays, unless the root is below it. A reduced path
stands for the stack that its parts come to. Parts with the same reduction can take each other's
place in front of other parts and behind them.
-/

namespace Esm.Path

-- ---------------------------------------------------------------------------
-- The stack
-- ---------------------------------------------------------------------------

/-- Put one part on a stack of parts, the last of which is on top. -/
def Part.onto (stack : List Part) : Part → List Part
  | .root => [.root]
  | .here => stack
  | .up =>
    match stack.getLast? with
    | some (.name _) => stack.dropLast
    | some .root => stack
    | _ => stack ++ [.up]
  | .name text => stack ++ [.name text]

/-- What a sequence of parts comes to on a stack. -/
def collapse (ps : List Part) : List Part := ps.foldl Part.onto []

/-- A text in lexical normal form: names without dots or empty segments between them, behind the
root, behind a single leading dot, or behind as many `..` as lead out of the current directory. -/
inductive IsNormal : String → Prop where
  | absolute {names : List String} : (∀ name ∈ names, IsPlain name) →
    IsNormal ("/" ++ "/".intercalate names)
  | inside {names : List String} : (∀ name ∈ names, IsPlain name) →
    IsNormal ("./" ++ "/".intercalate names)
  | outside {ups : Nat} {names : List String} : (∀ name ∈ names, IsPlain name) →
    IsNormal ("/".intercalate (List.replicate (ups + 1) ".." ++ names))

namespace Reduced

/-- The names at the end of a reduced path. -/
def names : Reduced → List String
  | .absolute names => names
  | .relative _ names => names

/-- The dot that a relative path that does not go up is written with. -/
def lead : Reduced → List Part
  | .relative 0 _ => [.here]
  | _ => []

/-- The parts of a reduced path, apart from a leading dot. -/
def parts : Reduced → List Part
  | .absolute names => .root :: names.map .name
  | .relative ups names => List.replicate ups .up ++ names.map .name

/-- All names are plain. -/
def Plain (r : Reduced) : Prop := ∀ name ∈ r.names, IsPlain name

/-- The path starts at the root. -/
def isAbsolute : Reduced → Bool
  | .absolute _ => true
  | .relative _ _ => false

-- ---------------------------------------------------------------------------
-- Going on
-- ---------------------------------------------------------------------------

theorem push_name_up (r : Reduced) (text : String) : (r.push (.name text)).push .up = r := by
  cases r with
  | absolute names => exact congrArg absolute List.dropLast_concat
  | relative ups names =>
    cases names with
    | nil => rfl
    | cons name names =>
      have taken : (name :: names ++ [text]).dropLast = name :: names := List.dropLast_concat
      exact congrArg (relative ups) taken

/-- Names are none, or all but the last and the last. -/
theorem names_cases (names : List String) :
    names = [] ∨ ∃ before last, names = before ++ [last] := by
  cases names with
  | nil => exact Or.inl rfl
  | cons name names =>
    exact Or.inr ⟨_, _, (List.dropLast_concat_getLast (List.cons_ne_nil name names)).symm⟩

/-- A path that goes on by names, and then goes up. -/
theorem absolute_concat_up (before : List String) (last : String) :
    (absolute (before ++ [last])).push .up = absolute before :=
  push_name_up (.absolute before) last

theorem relative_concat_up (ups : Nat) (before : List String) (last : String) :
    (relative ups (before ++ [last])).push .up = relative ups before :=
  push_name_up (.relative ups before) last

theorem foldl_push_names (r : Reduced) (names : List String) :
    (names.map .name).foldl push r = match r with
      | .absolute before => .absolute (before ++ names)
      | .relative ups before => .relative ups (before ++ names) := by
  induction names generalizing r with
  | nil => cases r <;> simp
  | cons name names ih => cases r <;> simp [ih, push]

theorem foldl_push_ups (ups ups' : Nat) :
    (List.replicate ups' Part.up).foldl push (.relative ups []) = .relative (ups + ups') [] := by
  induction ups' generalizing ups with
  | zero => rfl
  | succ ups' ih =>
    rw [List.replicate_succ, List.foldl_cons, push, ih]
    congr 1
    omega

/-- Reducing the parts of a reduced path gives it back. -/
theorem ofParts_parts (r : Reduced) : ofParts r.parts = r := by
  unfold ofParts
  cases r with
  | absolute names => exact foldl_push_names (.absolute []) names
  | relative ups names =>
    rw [parts, List.foldl_append, here, foldl_push_ups, foldl_push_names]
    simp

theorem parts_injective {r r' : Reduced} (same : r.parts = r'.parts) : r = r' := by
  rw [← ofParts_parts r, same, ofParts_parts]

/-- To go on by the parts of a reduced path that has gone on by one part. -/
theorem foldl_parts_push (r s : Reduced) (p : Part) :
    (s.push p).parts.foldl push r = (s.parts.foldl push r).push p := by
  -- a name taken away is one that has just been gone on by
  have taken : ∀ (r : Reduced) (before : List String) (last : String),
      (before.map .name).foldl push r =
        (((before ++ [last]).map .name).foldl push r).push .up := by
    intro r before last
    rw [List.map_append, List.foldl_append]
    exact (push_name_up _ last).symm
  cases p with
  | root => rfl
  | here => rfl
  | name text => cases s <;> simp [push, parts]
  | up =>
    cases s with
    | absolute names =>
      obtain rfl | ⟨before, last, rfl⟩ := names_cases names
      · rfl
      · rw [absolute_concat_up]
        exact taken (.absolute []) before last
    | relative ups names =>
      obtain rfl | ⟨before, last, rfl⟩ := names_cases names
      · simp [push, parts, List.replicate_succ']
      · rw [relative_concat_up, parts, parts, List.foldl_append, List.foldl_append]
        exact taken _ before last

/-- Parts that have been reduced behind a path lead where they led before. -/
theorem foldl_parts_foldl (r s : Reduced) (ps : List Part) :
    (ps.foldl push s).parts.foldl push r = ps.foldl push (s.parts.foldl push r) := by
  induction ps generalizing s with
  | nil => rfl
  | cons p ps ih => rw [List.foldl_cons, ih, foldl_parts_push, List.foldl_cons]

/-- A sequence of parts leads where its reduction leads. -/
theorem foldl_parts_ofParts (r : Reduced) (ps : List Part) :
    (ofParts ps).parts.foldl push r = ps.foldl push r :=
  foldl_parts_foldl r here ps

-- ---------------------------------------------------------------------------
-- The stack of a reduced path
-- ---------------------------------------------------------------------------

theorem parts_push (r : Reduced) (p : Part) : (r.push p).parts = Part.onto r.parts p := by
  cases p with
  | root => rfl
  | here => rfl
  | name text => cases r <;> simp [push, parts, Part.onto]
  | up =>
    cases r with
    | absolute names =>
      obtain rfl | ⟨before, last, rfl⟩ := names_cases names
      · rfl
      · have top : (absolute (before ++ [last])).parts =
            (absolute before).parts ++ [.name last] := by simp [parts]
        simp [absolute_concat_up, top, Part.onto]
    | relative ups names =>
      obtain rfl | ⟨before, last, rfl⟩ := names_cases names
      · cases ups with
        | zero => rfl
        | succ ups => simp [push, parts, Part.onto, List.replicate_succ']
      · have top : (relative ups (before ++ [last])).parts =
            (relative ups before).parts ++ [.name last] := by simp [parts]
        simp [relative_concat_up, top, Part.onto]

theorem parts_foldl_push (r : Reduced) (ps : List Part) :
    (ps.foldl push r).parts = ps.foldl Part.onto r.parts := by
  induction ps generalizing r with
  | nil => rfl
  | cons p ps ih => rw [List.foldl_cons, ih, parts_push, List.foldl_cons]

/-- The stack that parts come to is what their reduction stands for. -/
theorem parts_ofParts (ps : List Part) : (ofParts ps).parts = collapse ps :=
  parts_foldl_push here ps

/-- A reduced path is absolute exactly if the root is among the parts it comes from. -/
theorem isAbsolute_ofParts (ps : List Part) : (ofParts ps).isAbsolute = true ↔ .root ∈ ps := by
  have further : ∀ (r : Reduced), (ps.foldl push r).isAbsolute = true ↔
      r.isAbsolute = true ∨ .root ∈ ps := by
    induction ps with
    | nil => simp
    | cons p ps ih =>
      intro r
      have step : (r.push p).isAbsolute = true ↔ r.isAbsolute = true ∨ p = .root := by
        cases p with
        | root => simp [push, isAbsolute]
        | here => simp [push]
        | name text => cases r <;> simp [push, isAbsolute]
        | up =>
          cases r with
          | absolute names => simp [push, isAbsolute]
          | relative ups names => cases names <;> simp [push, isAbsolute]
      rw [List.foldl_cons, ih, step, List.mem_cons, or_assoc, eq_comm (a := p)]
  rw [ofParts, further here]
  exact or_iff_right (by decide)

/-- A name of a reduced path is one of the parts it comes from. -/
theorem mem_names_ofParts {ps : List Part} {name : String} (mem : name ∈ (ofParts ps).names) :
    .name name ∈ ps := by
  have step : ∀ (r : Reduced) (p : Part), name ∈ (r.push p).names →
      name ∈ r.names ∨ p = .name name := by
    intro r p mem
    cases p with
    | root => exact absurd mem List.not_mem_nil
    | here => exact Or.inl mem
    | up =>
      cases r with
      | absolute names => exact Or.inl (List.dropLast_subset names mem)
      | relative ups names =>
        cases names with
        | nil => exact absurd mem List.not_mem_nil
        | cons first names => exact Or.inl (List.dropLast_subset _ mem)
    | name text =>
      have last : ∀ {names : List String}, name ∈ names ++ [text] →
          name ∈ names ∨ Part.name text = .name name := by
        intro names mem
        obtain mem | mem := List.mem_append.1 mem
        · exact Or.inl mem
        · exact Or.inr (congrArg Part.name (List.mem_singleton.1 mem).symm)
      cases r <;> exact last mem
  have further : ∀ (ps : List Part) (r : Reduced), name ∈ (ps.foldl push r).names →
      name ∈ r.names ∨ .name name ∈ ps := by
    intro ps
    induction ps with
    | nil => exact fun _ mem => Or.inl mem
    | cons p ps ih =>
      intro r mem
      obtain mem | mem := ih (r.push p) mem
      · obtain mem | rfl := step r p mem
        · exact Or.inl mem
        · exact Or.inr List.mem_cons_self
      · exact Or.inr (List.mem_cons_of_mem p mem)
  exact (further ps here mem).resolve_left List.not_mem_nil

theorem plain_ofParts {ps : List Part} (named : ∀ name, Part.name name ∈ ps → IsPlain name) :
    (ofParts ps).Plain :=
  fun name mem => named name (mem_names_ofParts mem)

-- ---------------------------------------------------------------------------
-- The text of a reduced path
-- ---------------------------------------------------------------------------

theorem Plain.isNormal {r : Reduced} (plain : r.Plain) : IsNormal r.text := by
  cases r with
  | absolute names => exact .absolute plain
  | relative ups names =>
    cases ups with
    | zero => exact .inside plain
    | succ ups => exact .outside plain

/-- The text of a reduced path spells its parts. -/
theorem text_eq (r : Reduced) : r.text = spell (r.lead ++ r.parts) := by
  cases r with
  | absolute names => exact congrArg ("/" ++ "/".intercalate ·) (map_segment_name names).symm
  | relative ups names =>
    cases ups with
    | zero => exact congrArg ("./" ++ "/".intercalate ·) (map_segment_name names).symm
    | succ ups =>
      have whole : (relative (ups + 1) names).parts.map Part.segment =
          List.replicate (ups + 1) ".." ++ names := by
        rw [parts, List.map_append, map_segment_name, List.map_replicate]
        rfl
      exact congrArg "/".intercalate whole.symm

theorem Plain.isParts {r : Reduced} (plain : r.Plain) : IsParts (r.lead ++ r.parts) := by
  have named := isStep_of_mem_names plain
  cases r with
  | absolute names => exact .root named
  | relative ups names =>
    cases ups with
    | zero => exact .here named
    | succ ups =>
      have ups' : ∀ p ∈ List.replicate (ups + 1) Part.up, p.IsStep := by
        intro p mem
        rw [List.eq_of_mem_replicate mem]
        exact .up
      have steps : ∀ p ∈ List.replicate (ups + 1) Part.up ++ names.map .name, p.IsStep :=
        List.forall_mem_append.2 ⟨ups', named⟩
      exact .steps steps

/-- The parts of the text of a reduced path. -/
theorem parts_text {r : Reduced} (plain : r.Plain) : Path.parts r.text = r.lead ++ r.parts := by
  rw [text_eq, parts_spell plain.isParts]

theorem here_not_mem_parts (r : Reduced) : .here ∉ r.parts := by
  cases r <;> simp [parts]

/-- The parts of the text of a reduced path, apart from its leading dot. -/
theorem filter_parts_text {r : Reduced} (plain : r.Plain) :
    (Path.parts r.text).filter (· ≠ .here) = r.parts := by
  have others : r.parts.filter (· ≠ .here) = r.parts := by
    refine List.filter_eq_self.2 fun p mem => decide_eq_true ?_
    rintro rfl
    exact here_not_mem_parts r mem
  rw [parts_text plain, List.filter_append, others]
  cases r with
  | absolute names => rfl
  | relative ups names => cases ups <;> rfl

theorem isAbsolute_text {r : Reduced} (plain : r.Plain) :
    Path.isAbsolute r.text = r.isAbsolute := by
  apply Bool.eq_iff_iff.2
  rw [← root_mem_parts, parts_text plain]
  cases r with
  | absolute names => simp [lead, parts, isAbsolute]
  | relative ups names => cases ups <;> simp [lead, parts, isAbsolute]

/-- A leading dot leads nowhere. -/
theorem ofParts_lead_parts (r : Reduced) : ofParts (r.lead ++ r.parts) = r := by
  have same : ofParts (r.lead ++ r.parts) = ofParts r.parts := by
    cases r with
    | absolute names => rfl
    | relative ups names => cases ups <;> rfl
  rw [same, ofParts_parts]

theorem text_inj {r r' : Reduced} (plain : r.Plain) (plain' : r'.Plain) :
    r.text = r'.text ↔ r = r' := by
  refine ⟨fun same => parts_injective ?_, congrArg text⟩
  rw [← filter_parts_text plain, same, filter_parts_text plain']

theorem lead_push_name (r : Reduced) (name : String) : (r.push (.name name)).lead = r.lead := by
  cases r with
  | absolute names => rfl
  | relative ups names => cases ups <;> rfl

theorem lead_append_parts_ne_nil (r : Reduced) : r.lead ++ r.parts ≠ [] := by
  cases r with
  | absolute names => exact List.cons_ne_nil _ _
  | relative ups names => cases ups <;> exact List.cons_ne_nil _ _

end Reduced

/-- Parts with the same reduction lead to the same place from anywhere. -/
theorem collapse_append_congr {ps qs : List Part} (same : collapse ps = collapse qs)
    (ds : List Part) : collapse (ds ++ ps) = collapse (ds ++ qs) := by
  rw [← Reduced.parts_ofParts, ← Reduced.parts_ofParts] at same ⊢
  rw [Reduced.ofParts_append, Reduced.ofParts_append, ← Reduced.foldl_parts_ofParts, same,
    Reduced.foldl_parts_ofParts]

end Esm.Path
