-- SUMMARY: What a module tells after it has been stamped several times: of each property the last stamp that defines it.
import Esm.Proofs.FileTree.RealPath
import Esm.Proofs.Loader.Loading

/-!
# Stamping again

A stamp defines properties and takes none away. So after any number of calls each property of a
module is what the last call gave it that succeeded and defines it, and if there was none it is what
it was before. Every stamp defines the address and the main flag; these two are always those of the
last call that succeeded. The directory and the file name are defined by the stamps of real paths
only, and outlive a later stamp without one. Main statement: `perform_behind`.
-/

namespace Esm

/-- A call that stamps a module, with the file tree that it is made on. -/
structure Stamping where
  files : FileTree
  location : String
  real : Bool
  main : Bool

namespace ImportMeta

/-- Properties defined one after the other, each once, hide those that were there before. -/
theorem lookup_defineAll (properties : ImportMeta) {more : ImportMeta}
    (once : (more.map Prod.fst).Nodup) (key : String) :
    (properties.defineAll more).lookup key = (more.lookup key).or (properties.lookup key) := by
  induction more generalizing properties with
  | nil => rfl
  | cons p more ih =>
    obtain ⟨fresh, once⟩ := List.nodup_cons.1 once
    have rest := ih (properties.define p.1 p.2) once
    rw [Table.lookup_define] at rest
    rw [defineAll, List.foldl_cons, ← defineAll, rest, List.lookup_cons]
    by_cases same : key = p.1
    · have absent : more.lookup key = none := by
        refine List.lookup_eq_none_iff.2 fun q mem => bne_iff_ne.2 fun equal => fresh ?_
        rw [← same, equal]
        exact List.mem_map_of_mem mem
      rw [absent, if_pos same, same, beq_self_eq_true]
      rfl
    · rw [if_neg same, beq_false_of_ne same]

end ImportMeta

namespace Stamping

open Registry

/-- What the call defines a property as. A call that fails defines nothing. -/
def gives (call : Stamping) (key : String) : Option MetaValue :=
  match stampOf call.files call.location call.real call.main with
  | .ok properties => properties.lookup key
  | .error _ => none

/-- Make the call for a module. If it is refused, everything stays as it is. -/
def perform (call : Stamping) (h : Handle) (r : Registry) : Except LoadError Unit × Registry :=
  match r.stamp call.files h call.location call.real call.main with
  | .ok r' => (.ok (), r')
  | .error e => (.error e, r)

/-- Make calls for one module one after the other, whether or not they succeed. -/
def performAll (calls : List Stamping) (h : Handle) (r : Registry) : Registry :=
  calls.foldl (fun r call => (call.perform h r).2) r

-- ---------------------------------------------------------------------------
-- One call
-- ---------------------------------------------------------------------------

/-- The properties that a stamp defines. -/
def keys (real : Bool) : List String :=
  if real then ["url", "main", "dirname", "basename"] else ["url", "main"]

theorem keys_subset {key : String} {real : Bool} (mem : key ∈ keys real) :
    key ∈ ["url", "main", "dirname", "basename"] := by
  cases real with
  | false => exact List.mem_append_left ["dirname", "basename"] mem
  | true => exact mem

/-- Directory and name are defined with a real path only. -/
theorem mem_keys {key : String} {real : Bool} : key ∈ keys real ↔
    key ∈ ["url", "main"] ∨ real = true ∧ key ∈ ["dirname", "basename"] := by
  cases real with
  | false => simp [keys]
  | true => simp [keys, or_assoc]

theorem mem_keys_path {key : String} (path : key ∈ ["dirname", "basename"]) {real : Bool} :
    key ∈ keys real ↔ real = true := by
  have other : key ∉ ["url", "main"] := by
    simp only [List.mem_cons, List.not_mem_nil, or_false] at path
    obtain rfl | rfl := path <;> decide
  rw [mem_keys, or_iff_right other, and_iff_left path]

theorem map_fst_stampOf {files : FileTree} {location : String} {real main : Bool}
    {properties : ImportMeta} (h : stampOf files location real main = .ok properties) :
    properties.map Prod.fst = keys real := by
  cases real with
  | false =>
    rw [stampOf_literal] at h
    cases h
    rfl
  | true =>
    obtain ⟨real, -, rfl⟩ := stampOf_real_eq_ok h
    rfl

/-- A stamp defines each of its properties once. -/
theorem nodup_stampOf {files : FileTree} {location : String} {real main : Bool}
    {properties : ImportMeta} (h : stampOf files location real main = .ok properties) :
    (properties.map Prod.fst).Nodup := by
  rw [map_fst_stampOf h]
  cases real <;> decide

/-- A call is refused if its real path or the module is missing, and changes nothing; otherwise it
defines its properties. -/
theorem perform_cases (call : Stamping) (h : Handle) (r : Registry) :
    (∃ e, call.perform h r = (.error e, r) ∧
      ((call.real = true ∧ ∃ cause, call.files.realPath call.location = .error cause ∧
          e = .realPath call.location cause) ∨
        r.get? h = none ∧ e = .unknownHandle h)) ∨
    ∃ properties m,
      stampOf call.files call.location call.real call.main = .ok properties ∧ r.get? h = some m ∧
        call.perform h r =
          (.ok (), r.update h fun m => { m with importMeta := m.importMeta.defineAll properties }) := by
  unfold perform
  cases stamped : stampOf call.files call.location call.real call.main with
  | error e =>
    have refused : r.stamp call.files h call.location call.real call.main = .error e := by
      unfold Registry.stamp
      rw [stamped]
      rfl
    refine Or.inl ⟨e, by rw [refused], ?_⟩
    exact Or.inl (stampOf_eq_error.1 stamped)
  | ok properties =>
    cases found : r.get? h with
    | none =>
      have refused : r.stamp call.files h call.location call.real call.main =
          .error (.unknownHandle h) := by
        unfold Registry.stamp
        rw [stamped]
        simp only [found, bind, Except.bind]
      exact Or.inl ⟨_, by rw [refused], Or.inr ⟨rfl, rfl⟩⟩
    | some m =>
      refine Or.inr ⟨properties, m, rfl, rfl, ?_⟩
      rw [stamp_eq_ok.2 ⟨properties, m, stamped, found, rfl⟩]

/-- Of a module that had no properties a call makes known what it gives and nothing else. -/
theorem perform_fresh {call : Stamping} {properties : ImportMeta}
    (stamped : stampOf call.files call.location call.real call.main = .ok properties)
    (r : Registry) (m : Module) :
    ∃ r' alone, call.perform r.count (r.register m).1 = (.ok (), r') ∧
      r'.get? r.count = some alone ∧ ∀ key, alone.importMeta.lookup key = call.gives key := by
  have found := get?_registered r m
  unfold perform
  rw [stamp_eq_ok.2 ⟨properties, _, stamped, found, rfl⟩]
  refine ⟨_, ⟨m, .compiled, [], properties⟩, rfl, ?_, fun key => ?_⟩
  · rw [get?_update, if_pos rfl, found, Option.map_some, defineAll_stampOf stamped]
  · unfold gives
    rw [stamped]

/-- A call that succeeds gives a value to the properties that it defines, and to no others. -/
theorem isSome_gives {call : Stamping} {properties : ImportMeta}
    (stamped : stampOf call.files call.location call.real call.main = .ok properties)
    {key : String} : (call.gives key).isSome = true ↔ key ∈ keys call.real := by
  unfold gives
  rw [stamped, ← map_fst_stampOf stamped, List.lookup_isSome_iff, List.mem_map]
  exact exists_congr fun p => and_congr_right fun _ => beq_iff_eq.trans eq_comm

/-- A call gives a value to one of its properties if it succeeds. -/
theorem gives_eq_none (call : Stamping) {key : String} : call.gives key = none ↔
    key ∈ keys call.real →
      ∃ e, stampOf call.files call.location call.real call.main = .error e := by
  cases stamped : stampOf call.files call.location call.real call.main with
  | error e =>
    unfold gives
    rw [stamped]
    exact iff_of_true rfl fun _ => ⟨e, rfl⟩
  | ok properties =>
    rw [← isSome_gives stamped, ← Option.not_isSome_iff_eq_none]
    refine ⟨fun none some => absurd some none, fun fails some => ?_⟩
    obtain ⟨e, failed⟩ := fails some
    cases failed

-- ---------------------------------------------------------------------------
-- Several calls
-- ---------------------------------------------------------------------------

/-- A module in which some properties have been given other values, and nothing else has changed. -/
structure Overlaid (given : String → Option MetaValue) (m m' : Registered) : Prop where
  others : m' = { m with importMeta := m'.importMeta }
  lookup : ∀ key, m'.importMeta.lookup key = (given key).or (m.importMeta.lookup key)

/-- A call gives a module the properties that it defines, and leaves all other modules alone. -/
theorem perform_overlaid (call : Stamping) {h : Handle} {r : Registry} {m : Registered}
    (found : r.get? h = some m) :
    (∃ m', (call.perform h r).2.get? h = some m' ∧ Overlaid call.gives m m') ∧
      ∀ k, k ≠ h → (call.perform h r).2.get? k = r.get? k := by
  obtain ⟨e, refused, ⟨real, cause, path, -⟩ | ⟨unknown, -⟩⟩ | ⟨properties, n, stamped, found', done⟩ :=
    perform_cases call h r
  · rw [refused]
    refine ⟨⟨m, found, rfl, fun key => ?_⟩, fun _ _ => rfl⟩
    unfold gives
    rw [stampOf_eq_error.2 ⟨real, cause, path, rfl⟩]
    rfl
  · rw [found] at unknown
    cases unknown
  · rw [found] at found'
    cases found'
    rw [done]
    refine ⟨⟨{ m with importMeta := m.importMeta.defineAll properties }, ?_, rfl, fun key => ?_⟩,
      fun k other => ?_⟩
    · rw [get?_update, if_pos rfl, found, Option.map_some]
    · unfold gives
      rw [stamped]
      exact ImportMeta.lookup_defineAll _ (nodup_stampOf stamped) key
    · rw [get?_update, if_neg other]

/-- After several calls each property is what the last call gives it that gives it at all. -/
theorem performAll_overlaid (calls : List Stamping) {h : Handle} {r : Registry} {m : Registered}
    (found : r.get? h = some m) :
    (∃ m', (performAll calls h r).get? h = some m' ∧
      Overlaid (fun key => calls.reverse.findSome? (·.gives key)) m m') ∧
      ∀ k, k ≠ h → (performAll calls h r).get? k = r.get? k := by
  induction calls generalizing r m with
  | nil => exact ⟨⟨m, found, rfl, fun key => rfl⟩, fun _ _ => rfl⟩
  | cons call calls ih =>
    obtain ⟨⟨m₁, found₁, first⟩, apart₁⟩ := perform_overlaid call found
    obtain ⟨⟨m', found', later⟩, apart⟩ := ih found₁
    refine ⟨⟨m', found', ?_, fun key => ?_⟩, fun k other => (apart k other).trans (apart₁ k other)⟩
    · rw [later.others, first.others]
    · rw [later.lookup, first.lookup, List.reverse_cons, List.findSome?_append,
        List.findSome?_singleton, Option.or_assoc]

/-- A handle stays known, or unknown. -/
theorem performAll_unknown {calls : List Stamping} {h : Handle} {r : Registry} :
    (performAll calls h r).get? h = none ↔ r.get? h = none := by
  cases found : r.get? h with
  | some m =>
    obtain ⟨⟨m', found', -⟩, -⟩ := performAll_overlaid calls found
    rw [found']
    exact iff_of_false nofun nofun
  | none =>
    refine iff_of_true ?_ rfl
    induction calls with
    | nil => exact found
    | cons call calls ih =>
      obtain ⟨e, refused, -⟩ | ⟨properties, m, -, found', -⟩ := perform_cases call h r
      · rw [performAll, List.foldl_cons, refused]
        exact ih
      · rw [found] at found'
        cases found'

/-- A directory or a name is not known from calls exactly if none of them succeeded with a real
path. -/
theorem paths_unknown (calls : List Stamping) {key : String} (path : key ∈ ["dirname", "basename"]) :
    calls.reverse.findSome? (·.gives key) = none ↔ ∀ earlier ∈ calls, earlier.real = true →
      ∃ cause, earlier.files.realPath earlier.location = .error cause := by
  rw [List.findSome?_eq_none_iff]
  refine ⟨fun none earlier mem real => ?_, fun fails earlier mem => ?_⟩
  · obtain ⟨e, failed⟩ := (gives_eq_none earlier).1 (none earlier (List.mem_reverse.2 mem))
      (mem_keys.2 (Or.inr ⟨real, path⟩))
    obtain ⟨-, cause, refused, -⟩ := stampOf_eq_error.1 failed
    exact ⟨cause, refused⟩
  · refine (gives_eq_none earlier).2 fun among => ?_
    have real := (mem_keys_path path).1 among
    obtain ⟨cause, refused⟩ := fails earlier (List.mem_reverse.1 mem) real
    exact ⟨_, stampOf_eq_error.2 ⟨real, cause, refused, rfl⟩⟩

/-- A call behind others that succeeds gives the last value to its properties. -/
theorem perform_last {call : Stamping} {calls : List Stamping} {h : Handle} {r s : Registry}
    (done : call.perform h (performAll calls h r) = (.ok (), s)) :
    ∃ properties m m', stampOf call.files call.location call.real call.main = .ok properties ∧
      r.get? h = some m ∧ s.get? h = some m' ∧ (∀ k, k ≠ h → s.get? k = r.get? k) ∧
      Overlaid (fun key => (call.gives key).or (calls.reverse.findSome? (·.gives key))) m m' := by
  obtain ⟨e, refused, -⟩ | ⟨properties, n, stamped, present, -⟩ :=
    perform_cases call h (performAll calls h r)
  · rw [refused] at done
    cases done
  cases found : r.get? h with
  | none =>
    rw [performAll_unknown.2 found] at present
    cases present
  | some m =>
    have last : performAll (calls ++ [call]) h r = s := by
      rw [performAll, List.foldl_append]
      exact congrArg Prod.snd done
    obtain ⟨⟨m', found', overlaid⟩, apart⟩ := performAll_overlaid (calls ++ [call]) found
    rw [last] at found' apart
    refine ⟨properties, m, m', stamped, rfl, found', apart, overlaid.others, fun key => ?_⟩
    rw [overlaid.lookup, List.reverse_append, List.reverse_singleton, List.singleton_append,
      List.findSome?_cons]
    cases call.gives key <;> rfl

/-- A call behind any others for the same module. If it is refused it changes nothing. If it succeeds
it succeeds as well for a module that has just been registered, the address and the main flag are
what it makes them there, and no other module and no other property has changed since before the
first call. The directory and the name are those of its real path if it has one. If it has none they
are what the last call before made them that had one, so they are absent, as in the module just
registered, exactly if they were absent before and no call had a real path. -/
theorem perform_behind (r : Registry) (h : Handle) (calls : List Stamping) (call : Stamping) :
    (∀ e s, call.perform h (performAll calls h r) = (.error e, s) → s = performAll calls h r ∧
      ((call.real = true ∧ ∃ cause, call.files.realPath call.location = .error cause ∧
          e = .realPath call.location cause) ∨
        r.get? h = none ∧ e = .unknownHandle h)) ∧
    ∀ s, call.perform h (performAll calls h r) = (.ok (), s) →
      ∃ m m', r.get? h = some m ∧ s.get? h = some m' ∧
        m' = { m with importMeta := m'.importMeta } ∧ (∀ k, k ≠ h → s.get? k = r.get? k) ∧
        (∀ key, key ∉ ["url", "main", "dirname", "basename"] →
          m'.importMeta.lookup key = m.importMeta.lookup key) ∧
        ∀ (other : Registry) (n : Module), ∃ other' alone,
          call.perform other.count (other.register n).1 = (.ok (), other') ∧
          other'.get? other.count = some alone ∧
          (∀ key ∈ ["url", "main"], (alone.importMeta.lookup key).isSome = true ∧
            m'.importMeta.lookup key = alone.importMeta.lookup key) ∧
          ∀ key ∈ ["dirname", "basename"],
            ((alone.importMeta.lookup key).isSome = true ↔ call.real = true) ∧
            (call.real = false → m'.importMeta.lookup key =
              (calls.reverse.findSome? (·.gives key)).or (m.importMeta.lookup key)) ∧
            (m'.importMeta.lookup key = alone.importMeta.lookup key ↔
              call.real = true ∨ m.importMeta.lookup key = none ∧
                ∀ earlier ∈ calls, earlier.real = true →
                  ∃ cause, earlier.files.realPath earlier.location = .error cause) := by
  refine ⟨fun e s refused => ?_, fun s done => ?_⟩
  · obtain ⟨e', refused', reason⟩ | ⟨properties, m, -, -, done⟩ :=
      perform_cases call h (performAll calls h r)
    · rw [refused'] at refused
      cases refused
      exact ⟨rfl, reason.imp_right fun unknown => ⟨performAll_unknown.1 unknown.1, unknown.2⟩⟩
    · rw [done] at refused
      cases refused
  obtain ⟨properties, m, m', stamped, found, found', apart, overlaid⟩ := perform_last done
  refine ⟨m, m', found, found', overlaid.others, apart, fun key other => ?_, fun other n => ?_⟩
  · have never : ∀ earlier : Stamping, earlier.gives key = none := fun earlier =>
      (gives_eq_none earlier).2 fun among => absurd (keys_subset among) other
    rw [overlaid.lookup, never, List.findSome?_eq_none_iff.2 fun earlier _ => never earlier]
    rfl
  obtain ⟨other', alone, fresh, added, gives⟩ := perform_fresh stamped other n
  refine ⟨other', alone, fresh, added, fun key among => ?_, fun key path => ?_⟩
  · obtain ⟨value, given⟩ := Option.isSome_iff_exists.1
      ((isSome_gives stamped).2 (mem_keys.2 (Or.inl among)))
    rw [overlaid.lookup, gives, given]
    exact ⟨rfl, rfl⟩
  · have real_iff := (isSome_gives stamped).trans (mem_keys_path path)
    rw [gives, overlaid.lookup, ← paths_unknown calls path]
    refine ⟨real_iff, fun literal => ?_, ?_⟩
    · rw [Option.not_isSome_iff_eq_none.1 (mt real_iff.1 (Bool.eq_false_iff.1 literal))]
      rfl
    · cases given : call.gives key with
      | some value => exact iff_of_true rfl (Or.inl (real_iff.1 (given ▸ rfl)))
      | none =>
        have literal : ¬ call.real = true := by
          rw [← real_iff, given]
          exact Bool.false_ne_true
        rw [Option.none_or, Option.or_eq_none_iff, or_iff_right literal, and_comm]

/-- A registry with one module, which has no properties. -/
private def unstamped : Registry := (Registry.empty.register ⟨"m", .empty, ⟨[], []⟩⟩).1

private theorem steps_a : FileTree.steps "/a.js" = [.root, .here, .name "a.js"] := by rfl

private theorem validate_a : FileTree.validate "/a.js" = .ok () := rfl

/-- A call with a real path that is refused, and then one without: there is no directory. -/
theorem perform_behind_refused :
    let missing : Stamping := ⟨⟨[], []⟩, "/a.js", true, false⟩
    let literal : Stamping := ⟨⟨[], []⟩, "@tjs/std", false, true⟩
    missing.perform 0 unstamped = (.error (.realPath "/a.js" .notFound), unstamped) ∧
      ∃ s m', literal.perform 0 (performAll [missing] 0 unstamped) = (.ok (), s) ∧
        s.get? 0 = some m' ∧ m'.importMeta.lookup "dirname" = none := by
  intro missing literal
  have path : missing.files.realPath "/a.js" = .error .notFound := by
    have told : missing.files.inspect (FileTree.pathOf ([] ++ ["a.js"])) = .error .notFound := by
      have path : FileTree.pathOf ([] ++ ["a.js"]) = "/a.js" := by rfl
      have last : [Path.Part.root, .here, .name "a.js"].getLast? = some (.name "a.js") := rfl
      have above : missing.files.walk FileTree.maxLinks missing.files.current [.root, .here] =
          .ok (.found [] .directory) := by
        rw [FileTree.walk_root, FileTree.walk_here, FileTree.walk]
      have short : ¬ "a.js".utf8ByteSize > FileTree.maxName := by decide
      have absent : missing.files.lookup ([] ++ ["a.js"]) = none := rfl
      unfold FileTree.inspect
      simp only [path, validate_a, steps_a, last, List.dropLast, above, bind, Except.bind, short,
        if_false, absent]
    unfold FileTree.realPath
    rw [if_neg (by decide), if_neg (by decide), steps_a, FileTree.realWalk, FileTree.realWalk,
      FileTree.realWalk, told]
    rfl
  have refused : missing.perform 0 unstamped =
      (.error (.realPath "/a.js" .notFound), unstamped) := by
    unfold perform Registry.stamp
    rw [stampOf_eq_error.2 ⟨rfl, _, path, rfl⟩]
    rfl
  have same : performAll [missing] 0 unstamped = unstamped := by
    rw [performAll, List.foldl_cons, refused]
    rfl
  obtain ⟨m, m', found, found', -, -, -, behind⟩ :=
    (perform_behind unstamped 0 [missing] literal).2 _ (by rw [same]; rfl)
  obtain ⟨other', alone, -, -, -, paths⟩ := behind .empty ⟨"m", .empty, ⟨[], []⟩⟩
  obtain ⟨absent, -, unknown⟩ := paths "dirname" (by decide)
  cases found
  refine ⟨refused, _, m', by rw [same]; rfl, found', ?_⟩
  rw [unknown.2 (Or.inr ⟨rfl, List.forall_mem_singleton.2 fun _ => ⟨_, path⟩⟩)]
  exact Option.not_isSome_iff_eq_none.1 (mt absent.1 Bool.false_ne_true)

/-- A call without a real path behind one that has one leaves a directory, although by itself it
defines none. -/
theorem perform_literal_behind_real :
    let files : FileTree := ⟨[(["a.js"], .file [])], []⟩
    let real : Stamping := ⟨files, "/a.js", true, false⟩
    let literal : Stamping := ⟨files, "@tjs/std", false, false⟩
    ∃ s s' alone, real.perform 0 unstamped = (.ok (), s) ∧ literal.perform 0 s = (.ok (), s') ∧
      literal.perform 0 unstamped = (.ok (), alone) ∧
      (s'.get? 0).bind (·.importMeta.lookup "dirname") = some (.text "/") ∧
      (alone.get? 0).bind (·.importMeta.lookup "dirname") = none := by
  intro files real literal
  have found : files.find "/a.js" = .ok (["a.js"], .file []) := by
    have walked : files.walk FileTree.maxLinks [] [.name "a.js"] =
        .ok (.found ["a.js"] (.file [])) := FileTree.walk_file FileTree.maxLinks (by decide) rfl
    refine FileTree.find_eq_ok.2 (FileTree.locate_eq_ok.2 ⟨validate_a, ?_⟩)
    rw [steps_a, FileTree.walk_root, FileTree.walk_here]
    exact walked
  have spelled : files.Spelled := .ofEntries (.ofEntries (by decide) (by decide)) (by decide)
  have path : files.realPath "/a.js" = .ok "/a.js" := spelled.realPath_of_find found
  have first : real.perform 0 unstamped = (.ok (), ⟨[⟨⟨"m", .empty, ⟨[], []⟩⟩, .compiled, [],
      [("url", .text "file:///a.js"), ("main", .flag false), ("dirname", .text "/"),
        ("basename", .text "a.js")]⟩], [("m", 0)]⟩) := by
    unfold perform Registry.stamp
    rw [stampOf_real, path]
    rfl
  exact ⟨_, _, _, first, rfl, rfl, rfl, rfl⟩

end Stamping

end Esm
