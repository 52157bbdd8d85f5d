-- SUMMARY: The parts of a path that is put together are those of its pieces.
import Esm.Path.Basic

/-!
# Parts of a path

The parts of a path are read off the segments of its text: its first one may be the root or a dot,
and all others are names or go up. Where a path is put together with a slash, its segments are those
of the one piece and then those of the other. So the parts of a path joined to another are known
from the two.
-/

namespace Esm

-- ---------------------------------------------------------------------------
-- Segments
-- ---------------------------------------------------------------------------

namespace Text

variable {separator : Char}

theorem not_mem_segment {s cs : List Char} (mem : s ∈ segments separator cs) : separator ∉ s := by
  induction cs generalizing s with
  | nil =>
    obtain rfl := List.mem_singleton.1 mem
    exact List.not_mem_nil
  | cons c cs ih =>
    unfold segments at mem
    split at mem
    · obtain rfl | mem := List.mem_cons.1 mem
      · exact List.not_mem_nil
      · exact ih mem
    · rename_i other
      split at mem
      · rename_i none
        exact absurd none (segments_ne_nil separator cs)
      · rename_i first rest parts
        rw [parts] at ih
        obtain rfl | mem := List.mem_cons.1 mem
        · simp [Ne.symm other, ih List.mem_cons_self]
        · exact ih (List.mem_cons_of_mem first mem)

theorem segments_of_not_mem {cs : List Char} (absent : separator ∉ cs) :
    segments separator cs = [cs] := by
  induction cs with
  | nil => rfl
  | cons c cs ih =>
    obtain ⟨other, absent⟩ := not_or.1 (mt List.mem_cons.2 absent)
    rw [segments, if_neg (Ne.symm other), ih absent]

/-- A separator ends a segment. -/
theorem segments_append (before after : List Char) :
    segments separator (before ++ separator :: after) =
      segments separator before ++ segments separator after := by
  induction before with
  | nil => simp [segments]
  | cons c before ih =>
    rw [List.cons_append, segments, ih, segments]
    split
    · rfl
    · cases parts : segments separator before with
      | nil => exact absurd parts (segments_ne_nil separator before)
      | cons first rest => rfl

end Text

namespace Path

open Text

theorem split_append (before after : String) :
    split '/' (before ++ "/" ++ after) = split '/' before ++ split '/' after := by
  unfold split
  rw [String.append_assoc, String.toList_append, String.toList_append, ← List.map_append,
    ← segments_append]
  rfl

theorem split_of_not_mem {segment : String} (absent : '/' ∉ segment.toList) :
    split '/' segment = [segment] := by
  unfold split
  rw [segments_of_not_mem absent, List.map_singleton, String.ofList_toList]

/-- Segments put together with slashes. -/
theorem split_intercalate {segments : List String} (proper : segments ≠ [])
    (absent : ∀ segment ∈ segments, '/' ∉ segment.toList) :
    split '/' ("/".intercalate segments) = segments := by
  induction segments with
  | nil => exact absurd rfl proper
  | cons first rest ih =>
    obtain ⟨first', rest'⟩ := List.forall_mem_cons.1 absent
    cases rest with
    | nil => rw [String.intercalate_singleton, split_of_not_mem first']
    | cons second rest =>
      rw [String.intercalate_cons_cons, split_append, split_of_not_mem first',
        ih (List.cons_ne_nil _ _) rest', List.singleton_append]

/-- The first segment of a text, up to its first slash. -/
theorem split_head_append (before after : String) :
    (split '/' (before ++ "/" ++ after)).head? = (split '/' before).head? := by
  rw [split_append]
  cases segments : split '/' before with
  | nil => exact absurd (List.map_eq_nil_iff.1 segments) (segments_ne_nil _ _)
  | cons first rest => rfl

/-- The first segment of an absolute path is empty. -/
theorem split_head_of_isAbsolute {path : String} (absolute : isAbsolute path = true) :
    (split '/' path).head? = some "" := by
  unfold isAbsolute at absolute
  obtain ⟨cs, text⟩ := List.head?_eq_some_iff.1 (beq_iff_eq.1 absolute)
  rw [split, text]
  rfl

-- ---------------------------------------------------------------------------
-- The first part and the others
-- ---------------------------------------------------------------------------

/-- What the start of a path stands for: the root, or the current directory. -/
def lead (path : String) : List Part :=
  if isAbsolute path then [.root] else if (split '/' path).head? = some "." then [.here] else []

/-- The parts of a path behind its start. -/
def body (path : String) : List Part := (split '/' path).filterMap Part.ofSegment

theorem parts_eq (path : String) : parts path = lead path ++ body path := rfl

/-- A name that stands for itself wherever it is put between two slashes. -/
structure IsPlain (name : String) : Prop where
  notEmpty : name ≠ ""
  notHere : name ≠ "."
  notUp : name ≠ ".."
  noSlash : '/' ∉ name.toList

instance (name : String) : Decidable (IsPlain name) :=
  decidable_of_iff (name ≠ "" ∧ name ≠ "." ∧ name ≠ ".." ∧ '/' ∉ name.toList)
    ⟨fun ⟨h₁, h₂, h₃, h₄⟩ => ⟨h₁, h₂, h₃, h₄⟩, fun ⟨h₁, h₂, h₃, h₄⟩ => ⟨h₁, h₂, h₃, h₄⟩⟩

theorem IsPlain.ofSegment {name : String} (plain : IsPlain name) :
    Part.ofSegment name = some (.name name) := by
  simp [Part.ofSegment, plain.notEmpty, plain.notHere, plain.notUp]

/-- A part that may stand behind the start of a path: it goes up or goes on by a plain name. -/
inductive Part.IsStep : Part → Prop where
  | up : IsStep .up
  | name {text : String} : IsPlain text → IsStep (.name text)

theorem isStep_of_mem_body {path : String} {p : Part} (mem : p ∈ body path) : p.IsStep := by
  obtain ⟨segment, among, part⟩ := List.mem_filterMap.1 mem
  obtain ⟨cs, among', rfl⟩ := List.mem_map.1 among
  unfold Part.ofSegment at part
  split at part
  · cases part
  rename_i proper
  split at part
  · cases part
    exact .up
  rename_i notUp
  cases part
  simp only [Bool.or_eq_true, decide_eq_true_eq, not_or] at proper
  refine .name ⟨proper.1, proper.2, notUp, ?_⟩
  rw [String.toList_ofList]
  exact not_mem_segment among'

theorem mem_lead {path : String} {p : Part} (mem : p ∈ lead path) :
    p = .root ∧ isAbsolute path = true ∨ p = .here ∧ isAbsolute path = false := by
  unfold lead at mem
  split at mem
  · rename_i absolute
    exact Or.inl ⟨List.mem_singleton.1 mem, absolute⟩
  rename_i relative
  split at mem
  · exact Or.inr ⟨List.mem_singleton.1 mem, eq_false_of_ne_true relative⟩
  · exact absurd mem List.not_mem_nil

theorem plain_of_mem_parts {path name : String} (mem : Part.name name ∈ parts path) :
    IsPlain name := by
  obtain mem | mem := List.mem_append.1 mem
  · obtain ⟨other, -⟩ | ⟨other, -⟩ := mem_lead mem <;> cases other
  · cases isStep_of_mem_body mem with
    | name plain => exact plain

/-- The root stands first on absolute paths, and nowhere else. -/
theorem root_mem_parts {path : String} : .root ∈ parts path ↔ isAbsolute path = true := by
  constructor
  · intro mem
    obtain mem | mem := List.mem_append.1 mem
    · obtain ⟨-, absolute⟩ | ⟨other, -⟩ := mem_lead mem
      · exact absolute
      · cases other
    · cases isStep_of_mem_body mem
  · intro absolute
    rw [parts_eq, lead, if_pos absolute]
    exact List.mem_cons_self

-- ---------------------------------------------------------------------------
-- Joining
-- ---------------------------------------------------------------------------

theorem isAbsolute_append {before : String} (proper : before ≠ "") (after : String) :
    isAbsolute (before ++ after) = isAbsolute before := by
  unfold isAbsolute
  rw [String.toList_append]
  cases text : before.toList with
  | nil => exact absurd (String.toList_eq_nil_iff.1 text) proper
  | cons c cs => rfl

theorem body_append (before after : String) :
    body (before ++ "/" ++ after) = body before ++ body after := by
  unfold body
  rw [split_append, List.filterMap_append]

theorem lead_append {before : String} (proper : before ≠ "") (after : String) :
    lead (before ++ "/" ++ after) = lead before := by
  unfold lead
  rw [split_head_append, String.append_assoc, isAbsolute_append proper]

theorem lead_slash (after : String) : lead ("/" ++ after) = [.root] := by
  have absolute : isAbsolute ("/" ++ after) = true := by
    rw [isAbsolute_append (by decide)]
    rfl
  rw [lead, if_pos absolute]

theorem body_slash (after : String) : body ("/" ++ after) = body after := body_append "" after

/-- A slash at the end stands for nothing. -/
theorem parts_slash {path : String} (proper : path ≠ "") : parts (path ++ "/") = parts path := by
  have lead_eq := lead_append proper ""
  have body_eq := body_append path ""
  rw [String.append_empty] at lead_eq body_eq
  rw [parts_eq, lead_eq, body_eq]
  exact congrArg (lead path ++ ·) (List.append_nil _)

theorem parts_append (before after : String) :
    parts (before ++ "/" ++ after) = parts (before ++ "/") ++ body after := by
  by_cases none : before = ""
  · subst none
    rw [String.empty_append, parts_eq, lead_slash, body_slash]
    rfl
  · rw [parts_slash none, parts_eq, lead_append none, body_append, parts_eq, List.append_assoc]

/-- A relative path is put behind a slash, which may be there already. -/
theorem join_eq_append {path more : String} (proper : path ≠ "")
    (relative : isAbsolute more = false) :
    ∃ before, join path more = before ++ "/" ++ more ∧ (path = before ∨ path = before ++ "/") := by
  unfold join
  rw [relative, Bool.false_or, if_neg (by simpa using proper)]
  split
  · rename_i last
    obtain ⟨cs, text⟩ := List.getLast?_eq_some_iff.1 last
    obtain rfl : path = String.ofList cs ++ "/" := by
      apply String.toList_injective
      rw [text, String.toList_append, String.toList_ofList]
      rfl
    exact ⟨_, rfl, Or.inr rfl⟩
  · exact ⟨path, rfl, Or.inl rfl⟩

/-- A relative path joined to another goes on behind it. -/
theorem parts_join {path more : String} (proper : path ≠ "") (relative : isAbsolute more = false) :
    parts (join path more) = parts path ++ body more := by
  obtain ⟨before, joined, rfl | rfl⟩ := join_eq_append proper relative
  · rw [joined, parts_append, parts_slash proper]
  · rw [joined, parts_append]

/-- A text that starts with a dot and a slash. -/
theorem parts_here (after : String) : parts ("./" ++ after) = .here :: body after := by
  have whole : parts ("." ++ "/" ++ after) = .here :: body after := by
    rw [parts_eq, lead_append (by decide), body_append]
    rfl
  exact whole

-- ---------------------------------------------------------------------------
-- Spelling
-- ---------------------------------------------------------------------------

/-- What stands between two slashes for a part. -/
def Part.segment : Part → String
  | .root => ""
  | .here => "."
  | .up => ".."
  | .name text => text

/-- A text for parts. -/
def spell : List Part → String
  | .root :: ps => "/" ++ "/".intercalate (ps.map Part.segment)
  | .here :: ps => "./" ++ "/".intercalate (ps.map Part.segment)
  | ps => "/".intercalate (ps.map Part.segment)

/-- Parts as a path has them: steps, behind a root or a dot that may come first. -/
inductive IsParts : List Part → Prop where
  | root {ps : List Part} : (∀ p ∈ ps, p.IsStep) → IsParts (.root :: ps)
  | here {ps : List Part} : (∀ p ∈ ps, p.IsStep) → IsParts (.here :: ps)
  | steps {ps : List Part} : (∀ p ∈ ps, p.IsStep) → IsParts ps

theorem isParts_parts (path : String) : IsParts (parts path) := by
  have steps : ∀ p ∈ body path, p.IsStep := fun p mem => isStep_of_mem_body mem
  rw [parts_eq, lead]
  split
  · exact .root steps
  split
  · exact .here steps
  · exact .steps steps

theorem IsParts.dropLast {ps : List Part} (proper : IsParts ps) : IsParts ps.dropLast := by
  have fewer : ∀ {ps : List Part}, (∀ p ∈ ps, p.IsStep) → ∀ p ∈ ps.dropLast, p.IsStep :=
    fun steps p mem => steps p (List.dropLast_subset _ mem)
  cases proper with
  | @root ps steps =>
    cases ps with
    | nil => exact .steps (List.forall_mem_nil _)
    | cons p ps => exact .root (fewer steps)
  | @here ps steps =>
    cases ps with
    | nil => exact .steps (List.forall_mem_nil _)
    | cons p ps => exact .here (fewer steps)
  | steps steps => exact .steps (fewer steps)

theorem Part.IsStep.ofSegment {p : Part} (step : p.IsStep) : Part.ofSegment p.segment = some p := by
  cases step with
  | up => rfl
  | name plain => exact plain.ofSegment

theorem Part.IsStep.noSlash {p : Part} (step : p.IsStep) : '/' ∉ p.segment.toList := by
  cases step with
  | up => decide
  | name plain => exact plain.noSlash

theorem map_segment_name (names : List String) : (names.map .name).map Part.segment = names := by
  rw [List.map_map]
  exact List.map_id names

theorem isStep_of_mem_names {names : List String} (plain : ∀ name ∈ names, IsPlain name) :
    ∀ p ∈ names.map Part.name, p.IsStep := by
  intro p mem
  obtain ⟨name, among, rfl⟩ := List.mem_map.1 mem
  exact .name (plain name among)

theorem split_segments {ps : List Part} (proper : ps ≠ []) (steps : ∀ p ∈ ps, p.IsStep) :
    split '/' ("/".intercalate (ps.map Part.segment)) = ps.map Part.segment := by
  refine split_intercalate (mt List.map_eq_nil_iff.1 proper) fun segment mem => ?_
  obtain ⟨p, among, rfl⟩ := List.mem_map.1 mem
  exact (steps p among).noSlash

theorem filterMap_segments {ps : List Part} (steps : ∀ p ∈ ps, p.IsStep) :
    (ps.map Part.segment).filterMap Part.ofSegment = ps := by
  induction ps with
  | nil => rfl
  | cons first rest ih =>
    obtain ⟨step, steps⟩ := List.forall_mem_cons.1 steps
    rw [List.map_cons, List.filterMap_cons_some step.ofSegment, ih steps]

theorem body_segments {ps : List Part} (steps : ∀ p ∈ ps, p.IsStep) :
    body ("/".intercalate (ps.map Part.segment)) = ps := by
  by_cases proper : ps = []
  · subst proper
    rfl
  · rw [body, split_segments proper steps, filterMap_segments steps]

/-- A text that starts with a step has no root and no dot at its start. -/
theorem lead_segments {ps : List Part} (steps : ∀ p ∈ ps, p.IsStep) :
    lead ("/".intercalate (ps.map Part.segment)) = [] := by
  cases ps with
  | nil => rfl
  | cons first rest =>
    have segments := split_segments (List.cons_ne_nil first rest) steps
    have proper : first.segment ≠ "" ∧ first.segment ≠ "." := by
      cases steps first List.mem_cons_self with
      | up => decide
      | name plain => exact ⟨plain.notEmpty, plain.notHere⟩
    have relative : isAbsolute ("/".intercalate ((first :: rest).map Part.segment)) = false := by
      apply eq_false_of_ne_true
      intro absolute
      have empty := split_head_of_isAbsolute absolute
      rw [segments] at empty
      exact proper.1 (Option.some.inj empty)
    rw [lead, relative, segments]
    simp [proper.2]

/-- Steps alone are put together with slashes. -/
theorem spell_steps {ps : List Part} (steps : ∀ p ∈ ps, p.IsStep) :
    spell ps = "/".intercalate (ps.map Part.segment) := by
  cases ps with
  | nil => rfl
  | cons first rest => cases steps first List.mem_cons_self <;> rfl

/-- The text of parts has these parts. -/
theorem parts_spell {ps : List Part} (proper : IsParts ps) : parts (spell ps) = ps := by
  cases proper with
  | root steps =>
    rw [spell, parts_eq, lead_slash, body_slash, body_segments steps, List.singleton_append]
  | here steps => rw [spell, parts_here, body_segments steps]
  | steps steps =>
    rw [spell_steps steps, parts_eq, lead_segments steps, body_segments steps, List.nil_append]

end Path

end Esm
