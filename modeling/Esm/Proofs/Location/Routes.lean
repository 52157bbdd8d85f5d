-- SUMMARY: Relative specifiers that spell the same path name the same module, by whatever route.
import Esm.Location.Resolve
import Esm.Proofs.Loader.Addresses
import Esm.Proofs.Path.Reduction

/-!
# Routes of relative imports

A module imports another by a relative specifier, and that one the next. Where no file decides it,
the name of each is its specifier joined to the directory of the module before it. That name is in
lexical normal form, and it is the reduction of the parts of the directory that the chain starts in,
of the directories of the specifiers on the way, and of the last specifier. So it does not depend on
the route, but only on the path that the route spells. Main statement: `relative_routes`.
-/

namespace Esm

open Esm.Path

-- ---------------------------------------------------------------------------
-- Relative specifiers
-- ---------------------------------------------------------------------------

namespace Specifier

/-- A specifier is absolute exactly if it is an absolute path. -/
theorem kind_eq_absolute {specifier : String} :
    kind specifier = .absolute ↔ isAbsolute specifier = true := by
  have dots : ∀ {start : String}, start.toList.head? = some '.' →
      start.isPrefixOf specifier = true → ¬ isAbsolute specifier = true := by
    intro start dot starts absolute
    have slash := beq_iff_eq.1 absolute
    rw [head?_of_isPrefixOf dot starts] at slash
    cases slash
  unfold kind
  split
  · rename_i here
    exact iff_of_false nofun (dots rfl here)
  split
  · rename_i up
    exact iff_of_false nofun (dots rfl up)
  split
  · rename_i slash
    exact iff_of_true rfl (beq_iff_eq.2 (head?_of_isPrefixOf rfl slash))
  · rename_i other
    have relative : ¬ isAbsolute specifier = true := by
      intro absolute
      obtain ⟨rest, whole⟩ := List.head?_eq_some_iff.1 (beq_iff_eq.1 absolute)
      exact other (String.startsWith_string_iff.2 ⟨rest, whole.symm⟩)
    split
    · exact iff_of_false nofun relative
    · exact iff_of_false nofun relative

/-- The specifier names a file relative to the importing module. -/
def IsRelative (specifier : String) : Prop :=
  kind specifier = .relative ∨ kind specifier = .parentRelative

instance (specifier : String) : Decidable (IsRelative specifier) :=
  inferInstanceAs (Decidable (_ ∨ _))

/-- A relative specifier starts with one or two dots and a slash. -/
theorem IsRelative.cases {specifier : String} (relative : IsRelative specifier) :
    ∃ more, specifier = "./" ++ more ∨ specifier = "../" ++ more := by
  have behind : ∀ {start : String}, start.isPrefixOf specifier = true →
      ∃ more, specifier = start ++ more := by
    intro start starts
    obtain ⟨rest, whole⟩ := String.startsWith_string_iff.1 starts
    refine ⟨String.ofList rest, String.toList_injective ?_⟩
    rw [String.toList_append, String.toList_ofList, whole]
  by_cases here : "./".isPrefixOf specifier = true
  · obtain ⟨more, whole⟩ := behind here
    exact ⟨more, Or.inl whole⟩
  by_cases up : "../".isPrefixOf specifier = true
  · obtain ⟨more, whole⟩ := behind up
    exact ⟨more, Or.inr whole⟩
  unfold IsRelative kind at relative
  rw [if_neg here, if_neg up] at relative
  split at relative
  · obtain other | other := relative <;> cases other
  · split at relative <;> obtain other | other := relative <;> cases other

theorem IsRelative.isAbsolute {specifier : String} (relative : IsRelative specifier) :
    isAbsolute specifier = false := by
  refine eq_false_of_ne_true (mt kind_eq_absolute.2 ?_)
  obtain here | up := relative
  · rw [here]
    exact nofun
  · rw [up]
    exact nofun

end Specifier

namespace Path

-- ---------------------------------------------------------------------------
-- Directories
-- ---------------------------------------------------------------------------

theorem parent_of_parts {path : String} {before : List Part} {p : Part}
    (whole : parts path = before ++ [p]) (proper : p ≠ .root) : parent path = some before := by
  unfold parent
  rw [whole, List.getLast?_concat, List.dropLast_concat]
  cases p with
  | root => exact absurd rfl proper
  | _ => rfl

/-- A path with a file name names an entry of its directory. -/
theorem parts_of_fileName {path : String} (named : (fileName path).isSome = true) :
    ∃ directory name, parts path = directory ++ [.name name] ∧ parent path = some directory := by
  unfold fileName at named
  cases last : (parts path).getLast? with
  | none =>
    rw [last] at named
    cases named
  | some p =>
    obtain ⟨before, whole⟩ := List.getLast?_eq_some_iff.1 last
    rw [last] at named
    cases p with
    | name text => exact ⟨before, text, whole, parent_of_parts whole Part.noConfusion⟩
    | _ => cases named

/-- A relative path joined to another leads where the parts of both lead. -/
theorem foldl_parts_join {path more : String} (relative : isAbsolute more = false) (r : Reduced) :
    (parts (join path more)).foldl Reduced.push r =
      (parts path ++ parts more).foldl Reduced.push r := by
  by_cases empty : path = ""
  · subst empty
    rw [join, relative]
    rfl
  · have dot : ∀ r : Reduced, (lead more).foldl Reduced.push r = r := by
      intro r
      unfold lead
      rw [relative, if_neg Bool.false_ne_true]
      split <;> rfl
    rw [parts_join empty relative, parts_eq more, List.foldl_append, List.foldl_append,
      List.foldl_append, dot]

theorem isAbsolute_join {path more : String} (relative : isAbsolute path = false)
    (relative' : isAbsolute more = false) : isAbsolute (join path more) = false := by
  apply eq_false_of_ne_true
  intro absolute
  have mem := root_mem_parts.2 absolute
  by_cases empty : path = ""
  · rw [join, empty, relative'] at mem
    exact Bool.false_ne_true (relative'.symm.trans (root_mem_parts.1 mem))
  rw [parts_join empty relative'] at mem
  obtain mem | mem := List.mem_append.1 mem
  · exact Bool.false_ne_true (relative.symm.trans (root_mem_parts.1 mem))
  · cases isStep_of_mem_body mem

end Path

namespace Location

theorem referrerDirectory_of_parts {referrer : String} {before : List Part} {p : Part}
    (whole : Path.parts referrer = before ++ [p]) (proper : p ≠ .root) (inside : before ≠ []) :
    referrerDirectory referrer = before := by
  unfold referrerDirectory
  rw [parent_of_parts whole proper]
  cases before with
  | nil => exact absurd rfl inside
  | cons first rest => rfl

/-- The directory of a module is what its path has before its last part, unless nothing is there. -/
theorem referrerDirectory_cases (referrer : String) :
    (∃ p, p ≠ .root ∧ Path.parts referrer = referrerDirectory referrer ++ [p]) ∨
      referrerDirectory referrer = [.root] ∧ isAbsolute referrer = true ∨
      referrerDirectory referrer = [.here] ∧ isAbsolute referrer = false := by
  cases last : (Path.parts referrer).getLast? with
  | none =>
    have empty := List.getLast?_eq_none_iff.1 last
    have relative : isAbsolute referrer = false := by
      apply eq_false_of_ne_true
      intro absolute
      have mem := root_mem_parts.2 absolute
      rw [empty] at mem
      exact absurd mem List.not_mem_nil
    refine Or.inr (Or.inr ⟨?_, relative⟩)
    simp [referrerDirectory, Path.parent, last, relative]
  | some p =>
    obtain ⟨before, whole⟩ := List.getLast?_eq_some_iff.1 last
    by_cases root : p = .root
    · subst root
      have absolute : isAbsolute referrer = true :=
        root_mem_parts.1 (whole ▸ List.mem_concat_self)
      refine Or.inr (Or.inl ⟨?_, absolute⟩)
      simp [referrerDirectory, Path.parent, last, absolute]
    by_cases inside : before = []
    · subst inside
      have relative : isAbsolute referrer = false := by
        apply eq_false_of_ne_true
        intro absolute
        have mem := root_mem_parts.2 absolute
        rw [whole] at mem
        exact root (List.mem_singleton.1 mem).symm
      refine Or.inr (Or.inr ⟨?_, relative⟩)
      rw [referrerDirectory, parent_of_parts whole root]
    · exact Or.inl ⟨p, root, by rw [referrerDirectory_of_parts whole root inside, whole]⟩

theorem referrerDirectory_ne_nil (referrer : String) : referrerDirectory referrer ≠ [] := by
  unfold referrerDirectory
  split
  · exact List.cons_ne_nil _ _
  · rename_i other parent
    rintro rfl
    exact other rfl
  · split <;> exact List.cons_ne_nil _ _

theorem isParts_referrerDirectory (referrer : String) : IsParts (referrerDirectory referrer) := by
  obtain ⟨p, -, whole⟩ | ⟨root, -⟩ | ⟨here, -⟩ := referrerDirectory_cases referrer
  · have proper := (isParts_parts referrer).dropLast
    rwa [whole, List.dropLast_concat] at proper
  · rw [root]
    exact .root (List.forall_mem_nil _)
  · rw [here]
    exact .here (List.forall_mem_nil _)

/-- There is a path to the directory of any importing module. -/
theorem exists_directory (referrer : String) :
    ∃ directory, Path.parts directory = referrerDirectory referrer :=
  ⟨_, parts_spell (isParts_referrerDirectory referrer)⟩

theorem plain_of_mem_referrerDirectory {referrer name : String}
    (mem : .name name ∈ referrerDirectory referrer) : IsPlain name := by
  obtain ⟨directory, same⟩ := exists_directory referrer
  exact plain_of_mem_parts (same ▸ mem)

/-- The directory of a module is reached from the root exactly if the module is. -/
theorem root_mem_referrerDirectory {referrer : String} :
    .root ∈ referrerDirectory referrer ↔ isAbsolute referrer = true := by
  obtain ⟨p, proper, whole⟩ | ⟨root, absolute⟩ | ⟨here, relative⟩ := referrerDirectory_cases referrer
  · rw [← root_mem_parts, whole, List.mem_append, List.mem_singleton, or_iff_left proper.symm]
  · rw [root, absolute]
    exact iff_of_true List.mem_cons_self rfl
  · rw [here, relative]
    exact iff_of_false (by decide) Bool.false_ne_true

-- ---------------------------------------------------------------------------
-- One import
-- ---------------------------------------------------------------------------

section

variable {referrer specifier : String}

theorem plain_joinRelative : (joinRelative referrer specifier).Plain := by
  refine Reduced.plain_ofParts fun name mem => ?_
  obtain mem | mem := List.mem_append.1 mem
  · exact plain_of_mem_referrerDirectory mem
  · exact plain_of_mem_parts mem

theorem unprobed_relative (file : Specifier.isUrl referrer = false)
    (relative : Specifier.IsRelative specifier) :
    unprobed specifier referrer = .resolved (joinRelative referrer specifier).text := by
  unfold unprobed
  obtain kind | kind := relative <;> rw [kind] <;> simp [file]

theorem stems_relative (file : Specifier.isUrl referrer = false)
    (relative : Specifier.IsRelative specifier) (roots : List String) :
    stems roots specifier referrer = [(joinRelative referrer specifier).text] := by
  unfold stems
  obtain kind | kind := relative <;> rw [kind] <;> simp [file]

theorem isAbsolute_joinRelative (relative : Specifier.IsRelative specifier) :
    isAbsolute (joinRelative referrer specifier).text = isAbsolute referrer := by
  apply Bool.eq_iff_iff.2
  have other : .root ∉ Path.parts specifier := by
    rw [root_mem_parts, relative.isAbsolute]
    exact Bool.false_ne_true
  rw [Reduced.isAbsolute_text plain_joinRelative, joinRelative, Reduced.isAbsolute_ofParts,
    List.mem_append, or_iff_left other, root_mem_referrerDirectory]

end

/-- A path in lexical normal form starts with a slash or with a dot. -/
theorem head?_of_isNormal {path : String} (normal : IsNormal path) :
    path.toList.head?.any (· ≠ 'h') = true := by
  have starts : ∀ {start : String} (rest : String), start.toList.head?.any (· ≠ 'h') = true →
      (start ++ rest).toList.head?.any (· ≠ 'h') = true := by
    intro start rest other
    rw [String.toList_append, List.head?_append]
    cases first : start.toList.head? <;> rw [first] at other
    · cases other
    · exact other
  cases normal with
  | absolute => exact starts _ (by decide)
  | inside => exact starts _ (by decide)
  | outside =>
    rw [List.replicate_succ, List.cons_append, ← show "." ++ "." = ".." from rfl,
      String.intercalate_cons_append]
    exact starts _ (by decide)

/-- A path in lexical normal form is no address. -/
theorem isUrl_of_isNormal {path : String} (normal : IsNormal path) :
    Specifier.isUrl path = false := by
  have alone := isUrl_append (head?_of_isNormal normal) ""
  rwa [String.append_empty] at alone

/-- A specifier joined to a directory, in normal form. -/
def joinDirectory (directory specifier : String) : String :=
  (Reduced.ofParts (Path.parts (Path.join directory specifier))).text

/-- A relative specifier is joined to the directory of the importing module. -/
theorem joinRelative_text {directory referrer specifier : String}
    (same : Path.parts directory = referrerDirectory referrer)
    (relative : Specifier.IsRelative specifier) :
    (joinRelative referrer specifier).text = joinDirectory directory specifier := by
  rw [joinDirectory, Reduced.ofParts, foldl_parts_join relative.isAbsolute, same]
  rfl

-- ---------------------------------------------------------------------------
-- One import after the other
-- ---------------------------------------------------------------------------

/-- The name that a chain of specifiers leads to, each of a module that the one before names. -/
def follow (referrer : String) (chain : List String) : String :=
  chain.foldl (fun name specifier => (unprobed specifier name).location) referrer

/-- The parts that a route spells: the directories of the specifiers on the way, and the last
specifier. -/
def spelled (chain : List String) (last : String) : List Part :=
  chain.flatMap (fun specifier => (Path.parent specifier).getD []) ++ Path.parts last

/-- A relative specifier that names a file. -/
structure IsHop (specifier : String) : Prop where
  relative : Specifier.IsRelative specifier
  named : (Path.fileName specifier).isSome = true

/-- Every module on the way is a file, and is reached from the root exactly if the first one is. -/
theorem follow_relative {referrer : String} {chain : List String}
    (file : Specifier.isUrl referrer = false) (relative : ∀ p ∈ chain, Specifier.IsRelative p) :
    Specifier.isUrl (follow referrer chain) = false ∧
      isAbsolute (follow referrer chain) = isAbsolute referrer := by
  unfold follow
  induction chain generalizing referrer with
  | nil => exact ⟨file, rfl⟩
  | cons p chain ih =>
    obtain ⟨first, others⟩ := List.forall_mem_cons.1 relative
    rw [List.foldl_cons, unprobed_relative file first, Resolution.location]
    obtain ⟨file', absolute⟩ := ih (isUrl_of_isNormal plain_joinRelative.isNormal) others
    exact ⟨file', absolute.trans (isAbsolute_joinRelative first)⟩

/-- The directory of a file that a path leads to is the one that the path's directory leads to. -/
theorem ofParts_referrerDirectory {ps directory : List Part} {path : String}
    (named : ∀ name, .name name ∈ ps → IsPlain name) (file : (Path.fileName path).isSome = true)
    (parent : Path.parent path = some directory) :
    Reduced.ofParts (referrerDirectory (Reduced.ofParts (ps ++ Path.parts path)).text) =
      Reduced.ofParts (ps ++ directory) := by
  obtain ⟨directory', name, whole, parent'⟩ := Path.parts_of_fileName file
  obtain rfl : directory' = directory := Option.some.inj (parent'.symm.trans parent)
  have plain : (Reduced.ofParts (ps ++ Path.parts path)).Plain := by
    refine Reduced.plain_ofParts fun name mem => ?_
    obtain mem | mem := List.mem_append.1 mem
    · exact named name mem
    · exact plain_of_mem_parts mem
  let r := Reduced.ofParts (ps ++ directory')
  have last : Reduced.ofParts (ps ++ Path.parts path) = r.push (.name name) := by
    rw [whole, ← List.append_assoc, Reduced.ofParts_append]
    rfl
  rw [last] at plain ⊢
  have text : Path.parts (r.push (.name name)).text = (r.lead ++ r.parts) ++ [.name name] := by
    rw [Reduced.parts_text plain, Reduced.parts_push, Reduced.lead_push_name, List.append_assoc]
    rfl
  rw [referrerDirectory_of_parts text Path.Part.noConfusion r.lead_append_parts_ne_nil,
    Reduced.ofParts_lead_parts]

/-- The last name on a route is the reduction of what the route spells, from the directory it starts
in. -/
theorem joinRelative_follow {referrer : String} {chain : List String}
    (file : Specifier.isUrl referrer = false) (hops : ∀ p ∈ chain, IsHop p) (last : String) :
    joinRelative (follow referrer chain) last =
      Reduced.ofParts (referrerDirectory referrer ++ spelled chain last) := by
  induction chain generalizing referrer with
  | nil => rfl
  | cons p chain ih =>
    obtain ⟨hop, hops⟩ := List.forall_mem_cons.1 hops
    obtain ⟨directory, name, -, parent⟩ := Path.parts_of_fileName hop.named
    have file' : Specifier.isUrl (joinRelative referrer p).text = false :=
      isUrl_of_isNormal plain_joinRelative.isNormal
    have first : follow referrer (p :: chain) = follow (joinRelative referrer p).text chain := by
      rw [follow, List.foldl_cons, unprobed_relative file hop.relative]
      rfl
    have further : spelled (p :: chain) last = directory ++ spelled chain last := by
      rw [spelled, List.flatMap_cons, parent, List.append_assoc]
      rfl
    rw [first, ih file' hops, further, Reduced.ofParts_append, joinRelative,
      ofParts_referrerDirectory (fun _ => plain_of_mem_referrerDirectory) hop.named parent,
      ← Reduced.ofParts_append, List.append_assoc]

/-- A specifier joined to the directory of a file, where that file is itself joined to a directory,
is joined to that directory behind the directory of the file's own specifier. -/
theorem joinDirectory_joinDirectory {directory inner outer p q : String} (hop : IsHop p)
    (relative : Specifier.IsRelative q) (parent : Path.parent p = some (Path.parts inner))
    (same : Path.parts outer = referrerDirectory (joinDirectory directory p)) :
    joinDirectory outer q = joinDirectory directory (Path.join inner q) := by
  have relative' : isAbsolute inner = false := by
    apply eq_false_of_ne_true
    intro absolute
    obtain ⟨directory', name, whole, parent'⟩ := Path.parts_of_fileName hop.named
    obtain rfl : directory' = Path.parts inner := Option.some.inj (parent'.symm.trans parent)
    have root : .root ∈ Path.parts p := by
      rw [whole]
      exact List.mem_append_left _ (root_mem_parts.2 absolute)
    exact Bool.false_ne_true (hop.relative.isAbsolute.symm.trans (root_mem_parts.1 root))
  have joined : joinDirectory directory p =
      (Reduced.ofParts (Path.parts directory ++ Path.parts p)).text := by
    rw [joinDirectory, Reduced.ofParts, foldl_parts_join hop.relative.isAbsolute]
    rfl
  have reached : Reduced.ofParts (Path.parts outer) =
      Reduced.ofParts (Path.parts directory ++ Path.parts inner) := by
    rw [same, joined]
    exact ofParts_referrerDirectory (fun _ => plain_of_mem_parts) hop.named parent
  unfold joinDirectory
  refine congrArg Reduced.text ?_
  calc Reduced.ofParts (Path.parts (Path.join outer q))
      = (Path.parts q).foldl Reduced.push (Reduced.ofParts (Path.parts outer)) := by
        rw [Reduced.ofParts, foldl_parts_join relative.isAbsolute, List.foldl_append]
        rfl
    _ = (Path.parts inner ++ Path.parts q).foldl Reduced.push
          (Reduced.ofParts (Path.parts directory)) := by
        rw [reached, Reduced.ofParts_append, List.foldl_append]
    _ = (Path.parts (Path.join inner q)).foldl Reduced.push
          (Reduced.ofParts (Path.parts directory)) :=
        (foldl_parts_join relative.isAbsolute _).symm
    _ = Reduced.ofParts (Path.parts (Path.join directory (Path.join inner q))) := by
        rw [← Reduced.ofParts_append, Reduced.ofParts, Reduced.ofParts,
          foldl_parts_join (isAbsolute_join relative' relative.isAbsolute)]

/-- Chains of relative specifiers from a module that is a file, where no file is found for any of
them. Each name is in lexical normal form, absolute exactly if that of the first module is, and apart
from a leading dot its parts are what those of its directory and of its specifier come to on a
stack. A specifier joined to the directory of a file that another leads to is joined behind the
directory of that one. And two routes from one directory give the same name exactly if what they
spell from there comes to the same on a stack, in particular if they spell the same path. -/
theorem relative_routes {referrer : String} (file : Specifier.isUrl referrer = false) :
    (∀ chain specifier, (∀ p ∈ chain, Specifier.IsRelative p) → Specifier.IsRelative specifier →
      ∃ key, unprobed specifier (follow referrer chain) = .resolved key ∧ IsNormal key ∧
        isAbsolute key = isAbsolute referrer ∧
        (Path.parts key).filter (· ≠ .here) =
          collapse (referrerDirectory (follow referrer chain) ++ Path.parts specifier) ∧
        ∀ directory, Path.parts directory = referrerDirectory (follow referrer chain) →
          key = joinDirectory directory specifier ∧
          (Path.parts key).filter (· ≠ .here) =
            collapse (Path.parts (Path.join directory specifier))) ∧
    (∀ directory inner outer p q, IsHop p → Specifier.IsRelative q →
      Path.parent p = some (Path.parts inner) →
      Path.parts outer = referrerDirectory (joinDirectory directory p) →
      joinDirectory outer q = joinDirectory directory (Path.join inner q)) ∧
    ∀ referrer' chain last chain' last', Specifier.isUrl referrer' = false →
      referrerDirectory referrer' = referrerDirectory referrer →
      (∀ p ∈ chain, IsHop p) → (∀ p ∈ chain', IsHop p) →
      Specifier.IsRelative last → Specifier.IsRelative last' →
      (unprobed last (follow referrer chain) = unprobed last' (follow referrer' chain') ↔
        collapse (referrerDirectory referrer ++ spelled chain last) =
          collapse (referrerDirectory referrer ++ spelled chain' last')) ∧
      (collapse (spelled chain last) = collapse (spelled chain' last') →
        unprobed last (follow referrer chain) = unprobed last' (follow referrer' chain')) := by
  refine ⟨fun chain specifier relative relative' => ?_,
    fun directory inner outer p q hop relative parent same =>
      joinDirectory_joinDirectory hop relative parent same,
    fun referrer' chain last chain' last' file' same hops hops' relative relative' => ?_⟩
  · obtain ⟨file', absolute⟩ := follow_relative file relative
    refine ⟨_, unprobed_relative file' relative', plain_joinRelative.isNormal,
      (isAbsolute_joinRelative relative').trans absolute, ?_, fun directory same => ?_⟩
    · rw [Reduced.filter_parts_text plain_joinRelative, joinRelative, Reduced.parts_ofParts]
    · have joined := joinRelative_text same relative'
      refine ⟨joined, ?_⟩
      rw [Reduced.filter_parts_text plain_joinRelative, ← Reduced.parts_ofParts, joinRelative,
        Reduced.ofParts, Reduced.ofParts, foldl_parts_join relative'.isAbsolute, same]
  · have on : ∀ p ∈ chain, Specifier.IsRelative p := fun p mem => (hops p mem).relative
    have on' : ∀ p ∈ chain', Specifier.IsRelative p := fun p mem => (hops' p mem).relative
    have keys : unprobed last (follow referrer chain) = unprobed last' (follow referrer' chain') ↔
        collapse (referrerDirectory referrer ++ spelled chain last) =
          collapse (referrerDirectory referrer ++ spelled chain' last') := by
      rw [unprobed_relative (follow_relative file on).1 relative,
        unprobed_relative (follow_relative file' on').1 relative', Resolution.resolved.injEq,
        Reduced.text_inj plain_joinRelative plain_joinRelative, joinRelative_follow file hops,
        joinRelative_follow file' hops', same, ← Reduced.parts_ofParts, ← Reduced.parts_ofParts]
      exact ⟨congrArg Reduced.parts, Reduced.parts_injective⟩
    exact ⟨keys, fun lexical => keys.2 (collapse_append_congr lexical _)⟩

/-- A module two directories away that imports a neighbour of the first one. -/
theorem relative_routes_neighbour :
    Specifier.isUrl "src/main.js" = false ∧
      unprobed "./../../util.js" (follow "src/main.js" ["./a//b/./c.js"]) =
        unprobed "./util.js" "src/main.js" := by
  have file : Specifier.isUrl "src/main.js" = false := by decide +kernel
  refine ⟨file, ?_⟩
  have hops : ∀ p ∈ ["./a//b/./c.js"], IsHop p :=
    List.forall_mem_singleton.2 ⟨by decide +kernel, by decide +kernel⟩
  exact ((relative_routes file).2.2 "src/main.js" ["./a//b/./c.js"] "./../../util.js" [] "./util.js"
    file rfl hops (List.forall_mem_nil _) (by decide +kernel) (by decide +kernel)).1.2
    (by decide +kernel)

end Location

end Esm
