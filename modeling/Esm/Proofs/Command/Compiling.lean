-- SUMMARY: The compiling program writes the module that its input compiles to, or leaves the files alone.
import Esm.Command.Compile
import Esm.Proofs.Encoding.Capacity
import Esm.Proofs.FileTree.Writing
import Esm.Proofs.Registry.Records
import Esm.Proofs.Registry.Retry

/-!
# Compiling

The program reads one file and writes one or two. Unless its input is a regular file that holds a
text, and that text compiles, it ends with a failure and has changed nothing. If it succeeds and its
outputs are files that are not one and the same, then each holds the serialized form of the module
in its byte order, and nothing else has changed. An output may be the input itself, may have been
there before, and may be reached through links.
-/

namespace Esm.Command

-- ---------------------------------------------------------------------------
-- Arguments
-- ---------------------------------------------------------------------------

theorem items_positional {g : Grammar} {args : List String}
    (plain : ∀ arg ∈ args, looksLikeOption arg = false) :
    items g args = some (args.map .positional) := by
  induction args with
  | nil =>
    unfold items
    rfl
  | cons arg rest ih =>
    have first := plain arg List.mem_cons_self
    have notEnd : arg ≠ "--" := by
      rintro rfl
      have option : looksLikeOption "--" = true := by decide +kernel
      rw [option] at first
      cases first
    have next : nextItem g arg rest = some (.positional arg, rest) := by
      unfold nextItem
      simp [first]
    unfold items
    rw [if_neg notEnd]
    split
    · rename_i none
      rw [next] at none
      cases none
    · rename_i item left some
      rw [next] at some
      cases some
      rw [ih fun arg mem => plain arg (List.mem_cons_of_mem _ mem)]
      rfl

/-- The arguments that ask for a request. -/
def CompileRequest.arguments (request : CompileRequest) : List String :=
  request.input :: request.output :: (request.swapped.toList ++ request.name.toList)

/-- A request is read from its arguments, if they do not look like options and no path is empty. A
name can be given only if there are two outputs. -/
theorem CompileRequest.ofArguments_arguments {request : CompileRequest}
    (plain : ∀ arg ∈ request.arguments, looksLikeOption arg = false)
    (paths : "" ∉ request.input :: request.output :: request.swapped.toList)
    (named : request.name.isSome → request.swapped.isSome) :
    ofArguments request.arguments = some request := by
  have positional : ∀ args : List String, positionals (args.map .positional) = args := by
    intro args
    simp [positionals, List.filterMap_map]
  have once : ∀ args : List String, eachOnce (args.map .positional) = true := by
    intro args
    simp [eachOnce, List.filterMap_map]
  unfold ofArguments
  simp only [items_positional plain, bind, Option.bind, positional, once]
  obtain ⟨input, output, swapped, name⟩ := request
  cases swapped with
  | none =>
    cases name with
    | some name => exact absurd (named rfl) nofun
    | none => simpa [arguments] using paths
  | some swapped =>
    cases name with
    | none => simpa [arguments] using paths
    | some name => simpa [arguments] using paths

-- ---------------------------------------------------------------------------
-- Input
-- ---------------------------------------------------------------------------

theorem decodeUtf8_eq_ok {bytes : List UInt8} {s : String} :
    Text.decodeUtf8 bytes = .ok s ↔ Encoding.utf8 s = bytes := by
  rw [← Encoding.ofUtf8?_eq_some]
  unfold Text.decodeUtf8
  cases Encoding.ofUtf8? bytes with
  | none => exact ⟨nofun, nofun⟩
  | some s' => simp

/-- The input is a regular file that holds a text, and this compiles to a module, under the name
that is given or else under the path of the input. -/
structure CompileRequest.Compiles (request : CompileRequest) (files : FileTree) (source : String)
    (m : Module) : Prop where
  held : ∃ location, files.find request.input = .ok (location, .file (Encoding.utf8 source))
  nonempty : source ≠ ""
  compiled : Module.compile source (request.name.getD request.input) = .ok m

/-- The text that a request is about, and the module, are known by the files. -/
theorem CompileRequest.Compiles.unique {request : CompileRequest} {files : FileTree}
    {source source' : String} {m m' : Module} (compiles : request.Compiles files source m)
    (compiles' : request.Compiles files source' m') : source = source' ∧ m = m' := by
  obtain ⟨location, found⟩ := compiles.held
  obtain ⟨location', found'⟩ := compiles'.held
  rw [found] at found'
  injection found' with places
  injection places with _ entries
  injection entries with bytes
  have same : some source = some source' := by
    rw [← Encoding.ofUtf8?_utf8 source, bytes, Encoding.ofUtf8?_utf8]
  obtain rfl := Option.some.inj same
  exact ⟨rfl, Except.ok.inj (compiles.compiled.symm.trans compiles'.compiled)⟩

theorem mapInput_eq_ok {files : FileTree} {path : String} {bytes : List UInt8} :
    mapInput files path = .ok bytes ↔
      (∃ location, files.find path = .ok (location, .file bytes)) ∧ bytes ≠ [] := by
  unfold mapInput
  cases files.find path with
  | error e => simp
  | ok place =>
    obtain ⟨location, entry⟩ := place
    cases entry with
    | file content =>
      cases content with
      | nil => simp
      | cons b rest =>
        simp only [List.isEmpty_cons, Bool.false_eq_true, if_false]
        constructor
        · rintro ⟨⟩
          exact ⟨⟨location, rfl⟩, List.cons_ne_nil b rest⟩
        · rintro ⟨⟨location', ⟨⟩⟩, -⟩
          rfl
    | directory => simp
    | locked => simp
    | link target => simp
    | device hasRoom => simp

theorem compileInput_eq_ok {files : FileTree} {request : CompileRequest} {m : Module} :
    compileInput files request = .ok m ↔ ∃ source, request.Compiles files source m := by
  unfold compileInput
  simp only [Interface.bind_eq_ok, Interface.mapError_eq_ok, mapInput_eq_ok, decodeUtf8_eq_ok]
  constructor
  · rintro ⟨bytes, ⟨held, nonempty⟩, source, rfl, compiled⟩
    refine ⟨source, held, ?_, compiled⟩
    rintro rfl
    exact nonempty rfl
  · rintro ⟨source, held, nonempty, compiled⟩
    refine ⟨_, ⟨held, ?_⟩, source, rfl, compiled⟩
    intro empty
    have same : some source = some "" := by
      rw [← Encoding.ofUtf8?_utf8 source, empty]
      exact Encoding.ofUtf8?_utf8 ""
    exact nonempty (Option.some.inj same)

-- ---------------------------------------------------------------------------
-- Outputs
-- ---------------------------------------------------------------------------

theorem writeOutput_cases (files : FileTree) (path : String) (bytes : List UInt8)
    (opening writing : FileError → CompileFailure) :
    (∃ e, writeOutput files path bytes opening writing = (.error e, files)) ∨
      ∃ files', files.Writes path bytes files' ∧
        writeOutput files path bytes opening writing = (.ok (), files') := by
  unfold writeOutput
  cases created : files.create path with
  | error e => exact Or.inl ⟨opening e, rfl⟩
  | ok opened =>
    obtain ⟨files', location, hasRoom⟩ := opened
    have writes := FileTree.create_writes created bytes
    cases hasRoom with
    | true => exact Or.inr ⟨_, writes, rfl⟩
    | false =>
      obtain rfl : files' = files := writes
      exact Or.inl ⟨writing .noSpace, rfl⟩

/-- A regular file that is there can be written. -/
theorem writeOutput_file {files : FileTree} {path : String} {location : Location}
    {old : List UInt8} (located : files.locate path = .ok (.found location (.file old)))
    (file : FileTree.endsInFolder path = false) (bytes : List UInt8)
    (opening writing : FileError → CompileFailure) :
    writeOutput files path bytes opening writing = (.ok (), files.set location (.file bytes)) := by
  have created : files.create path = .ok (files.set location (.file []), location, true) := by
    unfold FileTree.create
    simp only [(FileTree.locate_eq_ok.1 located).1, file, located, bind, Except.bind,
      Bool.false_eq_true, if_false]
  unfold writeOutput
  simp only [created, if_true, FileTree.fill_set]

/-- The first output is written, and then the second if there is one. -/
def CompileRequest.Writes (request : CompileRequest) (m : Module) (files files' : FileTree) : Prop :=
  ∃ files₁, files.Writes request.output (m.encode .native) files₁ ∧
    match request.swapped with
    | none => files' = files₁
    | some path => files₁.Writes path (m.encode .swapped) files'

/-- Either nothing is written; or the first output, and the second could not be; or the outputs. -/
theorem compileFiles_cases (files : FileTree) (request : CompileRequest) :
    (∃ e, compileFiles files request = (.error e, files)) ∨
      ∃ source m, request.Compiles files source m ∧
        ((∃ e files', files.Writes request.output (m.encode .native) files' ∧
            compileFiles files request = (.error e, files')) ∨
          ∃ files', request.Writes m files files' ∧
            compileFiles files request = (.ok (), files')) := by
  unfold compileFiles CompileRequest.Writes
  cases compiled : compileInput files request with
  | error e => exact Or.inl ⟨e, rfl⟩
  | ok m =>
    obtain ⟨source, compiles⟩ := compileInput_eq_ok.1 compiled
    obtain ⟨e, failed⟩ | ⟨files₁, writes, written⟩ :=
      writeOutput_cases files request.output (m.encode .native) .openOutput .writeOutput
    · simp only [failed]
      exact Or.inl ⟨e, rfl⟩
    · simp only [written]
      refine Or.inr ⟨source, m, compiles, ?_⟩
      cases request.swapped with
      | none => exact Or.inr ⟨files₁, ⟨files₁, writes, rfl⟩, rfl⟩
      | some path =>
        obtain ⟨e, failed⟩ | ⟨files', writes', written'⟩ :=
          writeOutput_cases files₁ path (m.encode .swapped) .openSwapped .writeSwapped
        · exact Or.inl ⟨e, files₁, writes, failed⟩
        · exact Or.inr ⟨files', ⟨files₁, writes, writes'⟩, written'⟩

/-- The outputs that are asked for, each with the byte order in which it is written. -/
def CompileRequest.outputs (request : CompileRequest) : List (String × ByteOrder) :=
  (request.output, .native) :: request.swapped.toList.map fun path => (path, .swapped)

/-- The outputs are regular files, each at a location of its own. -/
structure CompileRequest.EndsAt (request : CompileRequest) (files : FileTree)
    (locations : List Location) : Prop where
  apart : locations.Nodup
  regular : List.Forall₂ (fun output location =>
    ∃ bytes, files.find output.1 = .ok (location, .file bytes)) request.outputs locations

/-- Outputs that end up as regular files, each at a location of its own, hold what was written to
them, and no other location has changed. -/
theorem CompileRequest.Writes.contents {request : CompileRequest} {m : Module}
    {files files' : FileTree} {locations : List Location} (writes : request.Writes m files files')
    (ends : request.EndsAt files' locations) :
    List.Forall₂ (fun output location =>
        files'.find output.1 = .ok (location, .file (m.encode output.2)))
      request.outputs locations ∧
    (∀ location, location ∉ locations → files'.lookup location = files.lookup location) ∧
    files'.current = files.current := by
  obtain ⟨apart, regular⟩ := ends
  obtain ⟨files₁, first, second⟩ := writes
  obtain ⟨l₁, entry₁, located₁, file₁⟩ := first.located
  unfold CompileRequest.outputs at regular ⊢
  cases swapped : request.swapped with
  | none =>
    rw [swapped] at second regular
    obtain rfl : files' = files₁ := second
    obtain ⟨l, tail, ⟨content, found⟩, rest, rfl⟩ := List.forall₂_cons_left_iff.1 regular
    obtain rfl := List.forall₂_nil_left_iff.1 rest
    have same := FileTree.find_eq_ok.1 found
    rw [located₁] at same
    cases same
    obtain ⟨rfl, free, rfl⟩ := file₁ content rfl
    refine ⟨.cons found .nil, ?_, rfl⟩
    intro other elsewhere
    rw [FileTree.lookup_set, if_neg fun here => elsewhere (List.mem_singleton.2 here)]
  | some path =>
    rw [swapped] at second regular
    obtain ⟨l, tail, ⟨content, found⟩, rest, rfl⟩ := List.forall₂_cons_left_iff.1 regular
    obtain ⟨l', tail', ⟨content', found'⟩, end', rfl⟩ := List.forall₂_cons_left_iff.1 rest
    obtain rfl := List.forall₂_nil_left_iff.1 end'
    have differ : l ≠ l' := by
      rintro rfl
      exact (List.nodup_cons.1 apart).1 List.mem_cons_self
    obtain ⟨l₂, entry₂, located₂, file₂⟩ := FileTree.Writes.located second
    have same := FileTree.find_eq_ok.1 found'
    rw [located₂] at same
    cases same
    obtain ⟨rfl, free₂, rfl⟩ := file₂ content' rfl
    -- the first output was at the same location before the second was written
    have before := FileTree.find_eq_ok.1 (FileTree.find_of_find_set free₂ located₁ differ found)
    rw [located₁] at before
    cases before
    obtain ⟨rfl, free, rfl⟩ := file₁ content rfl
    refine ⟨.cons found (.cons found' .nil), ?_, rfl⟩
    intro other elsewhere
    simp only [List.mem_cons, List.not_mem_nil, or_false, not_or] at elsewhere
    rw [FileTree.lookup_set, if_neg elsewhere.2, FileTree.lookup_set, if_neg elsewhere.1]

-- ---------------------------------------------------------------------------
-- The program
-- ---------------------------------------------------------------------------

/-- If the program succeeds, the input compiles and the outputs have been written. -/
theorem writes_of_success {args : List String} {request : CompileRequest}
    (asked : CompileRequest.ofArguments args = some request) {files : FileTree}
    (success : (bootstrapCompile files args).status = 0) :
    ∃ source m, request.Compiles files source m ∧
      request.Writes m files (bootstrapCompile files args).files := by
  unfold bootstrapCompile at success ⊢
  simp only [asked] at success ⊢
  obtain ⟨e, failed⟩ | ⟨source, m, compiles, ⟨e, files₁, -, failed⟩ | ⟨files₁, writes, done⟩⟩ :=
    compileFiles_cases files request
  · simp only [failed] at success
    cases success
  · simp only [failed] at success
    cases success
  · simp only [done]
    exact ⟨source, m, compiles, writes⟩

/-- The program succeeds or ends with the status 255. Unless the input compiles it ends with that
status and leaves the files as they were. If it succeeds and its outputs end up as regular files,
each at a location of its own, then the input compiles to a module, every output holds the
serialized form of that module in its byte order, and no other location and not the current
directory has changed. What an output holds is read back as the module exactly if the module fits
the format, which it does if its name is short and its source is less than four gigabytes long. -/
theorem bootstrapCompile_outputs {args : List String} {request : CompileRequest}
    (asked : CompileRequest.ofArguments args = some request) (files : FileTree) :
    ((bootstrapCompile files args).status = 0 ∨ (bootstrapCompile files args).status = 255) ∧
    ((∀ source m, ¬ request.Compiles files source m) →
      (bootstrapCompile files args).status = 255 ∧ (bootstrapCompile files args).files = files) ∧
    ∀ files', (bootstrapCompile files args).files = files' →
      (bootstrapCompile files args).status = 0 →
      ∀ locations, request.EndsAt files' locations →
        ∃ source m, request.Compiles files source m ∧
          List.Forall₂ (fun output location => ∃ bytes,
              files'.find output.1 = .ok (location, .file bytes) ∧ bytes = m.encode output.2 ∧
              (Module.decode output.2 bytes = .ok m ↔ m.Encodable))
            request.outputs locations ∧
          (source.utf8ByteSize < UInt32.size → Encoding.Short (request.name.getD request.input) →
            m.Encodable) ∧
          (∀ location, location ∉ locations → files'.lookup location = files.lookup location) ∧
          files'.current = files.current := by
  have failure : ∀ {e files'}, compileFiles files request = (.error e, files') →
      bootstrapCompile files args = ⟨255, "", failureLine e.message, files'⟩ := by
    intro e files' failed
    unfold bootstrapCompile
    simp only [asked, failed]
  refine ⟨?_, ?_, ?_⟩
  · cases ran : compileFiles files request with
    | mk result files' =>
      cases result with
      | error e => exact Or.inr (by rw [failure ran])
      | ok =>
        left
        unfold bootstrapCompile
        simp only [asked, ran]
  · intro none
    obtain ⟨e, failed⟩ | ⟨source, m, compiles, -⟩ := compileFiles_cases files request
    · rw [failure failed]
      exact ⟨rfl, rfl⟩
    · exact absurd compiles (none source m)
  · rintro files' rfl success locations ends
    obtain ⟨source, m, compiles, writes⟩ := writes_of_success asked success
    obtain ⟨held, elsewhere, current⟩ := writes.contents ends
    have indexed : m.code.Indexed := (Registry.Made.compiled compiles.compiled).indexed
    refine ⟨source, m, compiles, ?_, Module.encodable_of_compile compiles.compiled, elsewhere,
      current⟩
    refine held.imp fun output location found => ⟨_, found, rfl, ?_⟩
    rw [Module.decode_eq_ok]
    exact ⟨fun ⟨_, size, _⟩ => size, fun size => ⟨rfl, size, indexed⟩⟩

/-- What the outputs of a source of less than four gigabytes hold is read back as its module. -/
theorem decode_outputs_of_size {args : List String} {request : CompileRequest}
    (asked : CompileRequest.ofArguments args = some request) {files files' : FileTree}
    {source : String} {m : Module} (compiles : request.Compiles files source m)
    (size : source.utf8ByteSize < UInt32.size)
    (named : Encoding.Short (request.name.getD request.input))
    (success : (bootstrapCompile files args).status = 0)
    (after : (bootstrapCompile files args).files = files') {locations : List Location}
    (ends : request.EndsAt files' locations) :
    List.Forall₂ (fun output location => ∃ bytes,
        files'.find output.1 = .ok (location, .file bytes) ∧ Module.decode output.2 bytes = .ok m)
      request.outputs locations := by
  subst after
  obtain ⟨source', m', compiles', writes⟩ := writes_of_success asked success
  obtain ⟨rfl, rfl⟩ := compiles.unique compiles'
  have fits : m.Encodable := Module.encodable_of_compile compiles.compiled size named
  have indexed : m.code.Indexed := (Registry.Made.compiled compiles.compiled).indexed
  exact (writes.contents ends).1.imp fun output location found =>
    ⟨_, found, Module.decode_eq_ok.2 ⟨rfl, fits, indexed⟩⟩

/-- The first output is the input itself, and the second is there already, behind a link. -/
theorem bootstrapCompile_outputs_overwritten :
    let files : FileTree := ⟨[(["in.js"], .file (Encoding.utf8 "import'a'")),
      (["out"], .link "old"), (["old"], .file [1, 2]), (["other"], .file [3])], []⟩
    let args := ["in.js", "in.js", "out"]
    let request : CompileRequest := ⟨"in.js", "in.js", some "out", none⟩
    let files' := (bootstrapCompile files args).files
    CompileRequest.ofArguments args = some request ∧
      (bootstrapCompile files args).status = 0 ∧ request.EndsAt files' [["in.js"], ["old"]] ∧
      (∃ source m bytes, request.Compiles files source m ∧
        files'.find "out" = .ok (["old"], .file bytes) ∧ bytes = m.encode .swapped) ∧
      files'.lookup ["other"] = some (.file [3]) := by
  intro files args request files'
  have asked : CompileRequest.ofArguments args = some request := by
    refine @CompileRequest.ofArguments_arguments request ?_ ?_ ?_
    · have plain : ∀ arg, arg = "in.js" ∨ arg = "out" → looksLikeOption arg = false := by
        rintro arg (rfl | rfl) <;> decide +kernel
      simp [CompileRequest.arguments, request, plain]
    · decide
    · decide
  let m : Module :=
    ⟨"in.js", ⟨["a"], [], []⟩, ⟨["import", "'a'"], [⟨.identifier, 0⟩, ⟨.string, 1⟩]⟩⟩
  have input : files.locate "in.js" =
      .ok (.found ["in.js"] (.file (Encoding.utf8 "import'a'"))) :=
    FileTree.find_eq_ok.1 (FileTree.find_file rfl (by rfl) (by decide) rfl)
  have output : files.locate "out" = .ok (.found ["old"] (.file [1, 2])) := by
    refine FileTree.locate_eq_ok.2 ⟨rfl, ?_⟩
    have steps : FileTree.steps "out" = [.name "out"] := by rfl
    have link : files.lookup (files.current ++ ["out"]) = some (.link "old") := by rfl
    have target : FileTree.steps "old" ++ [] = [.name "old"] := by rfl
    rw [steps, FileTree.maxLinks, FileTree.walk_link 39 (by decide) link, target]
    exact FileTree.walk_file 39 (by decide) rfl
  have compiled : compileInput files request = .ok m :=
    compileInput_eq_ok.2 ⟨"import'a'", ⟨["in.js"], FileTree.find_eq_ok.2 input⟩, by decide,
      compile_import "in.js"⟩
  let files₁ := files.set ["in.js"] (.file (m.encode .native))
  let files₂ := files₁.set ["old"] (.file (m.encode .swapped))
  have output₁ : files₁.locate "out" = .ok (.found ["old"] (.file [1, 2])) :=
    FileTree.locate_set (Or.inr ⟨_, rfl⟩) _ output
  have input₁ : files₁.locate "in.js" = .ok (.found ["in.js"] (.file (m.encode .native))) :=
    FileTree.locate_set (Or.inr ⟨_, rfl⟩) _ input
  have done : bootstrapCompile files args = ⟨0, "", "", files₂⟩ := by
    have first := writeOutput_file input (by decide +kernel) (m.encode .native) .openOutput
      .writeOutput
    have second := writeOutput_file output₁ (by decide +kernel) (m.encode .swapped) .openSwapped
      .writeSwapped
    have both : compileFiles files request = (.ok (), files₂) := by
      unfold compileFiles
      simp only [compiled]
      rw [first]
      exact second
    unfold bootstrapCompile
    simp only [asked, both]
  have same : files' = files₂ := congrArg Result.files done
  have ends : request.EndsAt files' [["in.js"], ["old"]] := by
    rw [same]
    refine ⟨by decide, .cons ⟨m.encode .native, ?_⟩ (.cons ⟨m.encode .swapped, ?_⟩ .nil)⟩
    · exact FileTree.find_eq_ok.2 (FileTree.locate_set (Or.inr ⟨[1, 2], rfl⟩) _ input₁)
    · exact FileTree.find_eq_ok.2 (FileTree.locate_set (Or.inr ⟨[1, 2], rfl⟩) _ output₁)
  have success : (bootstrapCompile files args).status = 0 := congrArg Result.status done
  obtain ⟨-, -, outputs⟩ := bootstrapCompile_outputs asked files
  obtain ⟨source, m', compiles, held, -, elsewhere, -⟩ := outputs files' rfl success _ ends
  refine ⟨asked, success, ends, ?_, elsewhere ["other"] (by decide)⟩
  obtain ⟨-, _ | ⟨⟨bytes, found, written, -⟩, -⟩⟩ := List.forall₂_cons.1 held
  exact ⟨source, m', bytes, compiles, found, written⟩

end Esm.Command
