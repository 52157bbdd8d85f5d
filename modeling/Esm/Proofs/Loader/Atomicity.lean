-- SUMMARY: A load that fails leaves the registry as it was, or with the module of a file that has no real path.
import Esm.Proofs.Loader.Bare

/-!
# Atomicity

A module is registered before it is stamped, and nothing takes it back. Every other refusal comes
before that, and leaves all as it was. The stamp of a file asks for its real path, and a file that has
been read need not have one: on the way to it each path has to be short enough for a system call,
however short the one was by which it was read. Then the module stays registered, without its
properties, and a later link finds it by its name. Main statement: `loadModule_atomic`.

Where every location can be spelled to the system (`FileTree.Spelled`) what can be read has a real path,
so that loading changes everything or nothing.
-/

namespace Esm

namespace Loader

open Registry

/-- A path by which a file can be read leads to something. -/
theorem find_of_read {files : FileTree} {path : String} {bytes : List UInt8}
    (read : files.read path = .ok bytes) :
    ∃ location entry, files.find path = .ok (location, entry) := by
  unfold FileTree.read at read
  cases found : files.find path with
  | error e =>
    rw [found] at read
    cases read
  | ok place => exact ⟨place.1, place.2, rfl⟩

/-- Loading a location adds one module with its stamp, or fails. If it fails before anything has been
registered, since there is no content, or that of an addon, or one that does not compile, the registry
is as it was. It may also fail because a file that holds a module has no real path: then the module is
left registered, and without properties. Of what can be read in a tree of files the real path is
that of the place where it was found, or it is refused because a path on the way is too long. It is
never refused where every location can be spelled to the system; from a current directory that can be,
it is refused if that of the place is too long. -/
theorem loadModule_atomic (loader : Loader) (files : FileTree) (location : String) (main : Bool)
    (r : Registry) (requests : Requests) :
    (∀ e r' requests', loader.loadModule files location main r requests = (.error e, r', requests') →
      (r' = r ∧ (Content.load files loader.transport location = .error e ∨
        ∃ content, Content.load files loader.transport location = .ok content ∧
          (content.kind = .nativeAddon ∧
              e = .unsupported location "native addons cannot be compiled" ∨
            content.kind ≠ .nativeAddon ∧
              ∃ cause, Module.compile content.source.text location = .error cause ∧
                e = .compile location cause))) ∨
      ∃ m cause, loader.Holds files location m ∧ Specifier.isUrl location = false ∧
        files.realPath location = .error cause ∧ e = .realPath location cause ∧
        r' = (r.register m).1) ∧
    (∀ h r' requests', loader.loadModule files location main r requests = (.ok h, r', requests') →
      ∃ m properties, loader.Holds files location m ∧
        stampOf files location (ContentKind.ofLocation location).isFile main = .ok properties ∧
        h = r.count ∧ r.Adds ⟨m, .compiled, [], properties⟩ r') ∧
    (∀ m cause, loader.Holds files location m → Specifier.isUrl location = false →
      files.realPath location = .error cause →
      loader.loadModule files location main r requests =
        (.error (.realPath location cause), (r.register m).1,
          requests ++ Content.requests location)) ∧
    ∀ bytes, files.Proper → files.read location = .ok bytes → ∃ place entry,
      files.find location = .ok (place, entry) ∧
      (files.realPath location = .ok (FileTree.pathOf place) ∨
        files.realPath location = .error .nameTooLong ∧ files.TooLong) ∧
      (files.Spelled → files.realPath location = .ok (FileTree.pathOf place)) ∧
      ((FileTree.pathOf files.current).utf8ByteSize ≤ FileTree.maxPath →
        FileTree.maxPath < (FileTree.pathOf place).utf8ByteSize →
        files.realPath location = .error .nameTooLong) := by
  refine ⟨fun e r' requests' call => ?_, fun h r' requests' call => ?_,
    fun m cause holds file path => loadModule_left holds file path main r requests,
    fun bytes proper read => ?_⟩
  · cases loadModule_loads call with
    | refused refused => exact Or.inl ⟨rfl, compiledAt_eq_error.1 refused⟩
    | @left m cause holds file path => exact Or.inr ⟨m, cause, holds, file, path, rfl, rfl⟩
  · cases loadModule_loads call with
    | @added m properties holds stamped => exact ⟨m, properties, holds, stamped, rfl, rfl⟩
  · obtain ⟨place, entry, found⟩ := find_of_read read
    exact ⟨place, entry, found, proper.realPath_of_find found,
      fun spelled => spelled.realPath_of_find found,
      fun current long => proper.realPath_long current found long⟩

/-- A script that is read through a link to above the current directory. -/
theorem loadModule_atomic_link :
    let files : FileTree :=
      ⟨[(["d"], .directory), (["d", "l"], .link "../a.js"), (["a.js"], .file [])], ["d"]⟩
    files.Spelled ∧ files.read "./l" = .ok [] ∧ files.realPath "./l" = .ok "/a.js" := by
  intro files
  have spelled : files.Spelled := .ofEntries (.ofEntries (by decide) (by decide)) (by decide)
  have walked : files.walk FileTree.maxLinks files.current (FileTree.steps "./l") =
      .ok (.found ["a.js"] (.file [])) := by
    have steps : FileTree.steps "./l" = [.here, .name "l"] := by rfl
    have target : FileTree.steps "../a.js" ++ [] = [.up, .name "a.js"] := by rfl
    have link : files.lookup (files.current ++ ["l"]) = some (.link "../a.js") := by rfl
    rw [steps, FileTree.walk_here, FileTree.maxLinks, FileTree.walk_link 39 (by decide) link, target,
      FileTree.walk_up]
    exact FileTree.walk_file 39 (by decide) rfl
  have found : files.find "./l" = .ok (["a.js"], .file []) :=
    FileTree.find_eq_ok.2 (FileTree.locate_eq_ok.2
      ⟨FileTree.validate_eq_ok.2 (by decide +kernel), walked⟩)
  have read : files.read "./l" = .ok [] := FileTree.read_of_find found
  obtain ⟨place, entry, found', -, real, -⟩ :=
    (loadModule_atomic .default files "./l" false .empty []).2.2.2 [] spelled.toProper read
  cases found.symm.trans found'
  exact ⟨spelled, read, real spelled⟩

/-- The script in a deep current directory holds a module. -/
theorem holds_deep (loader : Loader) (n : Nat) :
    loader.Holds (FileTree.deep n) "./f.js" ⟨"./f.js", .empty, ⟨[], []⟩⟩ := by
  have read := FileTree.read_of_find (FileTree.find_deep n)
  have text : Content.readText (FileTree.deep n) "./f.js" = .ok "" := by
    unfold Content.readText
    rw [read]
    rfl
  exact (holds_iff (by decide +kernel)).2
    ⟨"", text, by decide +kernel, List.not_mem_nil, Module.compile_empty "./f.js"⟩

/-- The script is read, but it has no real path. -/
theorem loadModule_deep (loader : Loader) (main : Bool) (r : Registry) (requests : Requests) :
    loader.loadModule (FileTree.deep 2047) "./f.js" main r requests =
      (.error (.realPath "./f.js" .nameTooLong), (r.register ⟨"./f.js", .empty, ⟨[], []⟩⟩).1,
        requests) := by
  have path := FileTree.realPath_deep (Nat.le_refl 2047) (by decide)
  have left := loadModule_left (holds_deep loader 2047) (by decide +kernel) path main r requests
  have unasked : Content.requests "./f.js" = [] := by rfl
  rwa [unasked, List.append_nil] at left

/-- A load that fails, of a script that can be read, and leaves its module behind. -/
theorem loadModule_leaves_deep :
    (FileTree.deep 2047).Proper ∧ (FileTree.deep 2047).read "./f.js" = .ok [] ∧
      (FileTree.deep 2047).realPath "./f.js" = .error .nameTooLong ∧
      Loader.default.loadModule (FileTree.deep 2047) "./f.js" false .empty [] =
        (.error (.realPath "./f.js" .nameTooLong),
          ⟨[⟨⟨"./f.js", .empty, ⟨[], []⟩⟩, .compiled, [], []⟩], [("./f.js", 0)]⟩, []) :=
  ⟨FileTree.deep_proper 2047, FileTree.read_of_find (FileTree.find_deep 2047),
    FileTree.realPath_deep (Nat.le_refl 2047) (by decide), loadModule_deep _ _ _ _⟩

end Loader

end Esm
