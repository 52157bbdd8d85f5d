-- SUMMARY: The address of a loaded module is decided by its name, and by no more than the path it spells.
import Esm.Proofs.FileTree.Names
import Esm.Proofs.Loader.Loading
import Esm.Startup.Builtin

/-!
# Addresses

A loaded module is stamped with an address: its name if that is one, and otherwise the real path of
its file. In a tree without links two loaded modules have the same address exactly if they have
the same name, or if their names are paths and spell the same one.
-/

namespace Esm

/-- The address that a module's properties tell. -/
def Registered.url? (m : Registered) : Option MetaValue := m.importMeta.lookup "url"

/-- The module was loaded from the location that is its name, and stamped after it. -/
def Registered.Loaded (files : FileTree) (m : Registered) : Prop :=
  ∃ main, Registry.stampOf files m.module.name (ContentKind.ofLocation m.module.name).isFile main =
    .ok m.importMeta

/-- Two locations are paths and spell the same one. -/
def FileTree.SamePath (files : FileTree) (a b : String) : Prop :=
  Specifier.isUrl a = false ∧ Specifier.isUrl b = false ∧ files.absolute a = files.absolute b

/-- The stamp of the standard library. -/
def Startup.libraryStamp : ImportMeta := [("url", .text libraryName), ("main", .flag false)]

theorem head?_of_isPrefixOf {start text : String} {c : Char} (first : start.toList.head? = some c)
    (starts : start.isPrefixOf text = true) : text.toList.head? = some c := by
  obtain ⟨rest, whole⟩ := String.startsWith_string_iff.1 starts
  rw [← whole, List.head?_append, first]
  rfl

theorem head?_of_isUrl {location : String} (h : Specifier.isUrl location = true) :
    location.toList.head? = some 'h' := by
  unfold Specifier.isUrl at h
  rcases Bool.or_eq_true_iff.1 h with h | h
  · exact head?_of_isPrefixOf rfl h
  · exact head?_of_isPrefixOf rfl h

/-- A text that starts with another letter is no address. -/
theorem isUrl_append {start : String} (other : start.toList.head?.any (· ≠ 'h') = true)
    (rest : String) : Specifier.isUrl (start ++ rest) = false := by
  apply eq_false_of_ne_true
  intro address
  have first := head?_of_isUrl address
  cases text : start.toList with
  | nil =>
    rw [text] at other
    cases other
  | cons c cs =>
    rw [String.toList_append, text] at first
    rw [text] at other
    exact of_decide_eq_true other (Option.some.inj first)

theorem head?_file (path : String) : ("file://" ++ path).toList.head? = some 'f' := by
  rw [String.toList_append, List.head?_append]
  rfl

/-- The address of a loaded module: of a file its absolute path, and of a web resource its name. -/
theorem Registered.Loaded.url {files : FileTree} (linkless : files.Linkless) {m : Registered}
    (loaded : m.Loaded files) :
    m.url? = some (.text (if Specifier.isUrl m.module.name then m.module.name
      else "file://" ++ files.absolute m.module.name)) := by
  obtain ⟨main, stamped⟩ := loaded
  rw [ContentKind.isFile_ofLocation] at stamped
  unfold Registered.url?
  cases web : Specifier.isUrl m.module.name with
  | true =>
    rw [web, Bool.not_true, Registry.stampOf_literal] at stamped
    rw [← Except.ok.inj stamped]
    rfl
  | false =>
    rw [web, Bool.not_false] at stamped
    obtain ⟨real, path, properties⟩ := Registry.stampOf_real_eq_ok stamped
    rw [properties, FileTree.realPath_linkless linkless path]
    rfl

/-- Two loaded modules have the same address exactly if they have the same name, or names that spell
the same path. -/
theorem Registered.Loaded.url_eq {files : FileTree} (linkless : files.Linkless) {m n : Registered}
    (first : m.Loaded files) (second : n.Loaded files) :
    m.url? = n.url? ↔
      m.module.name = n.module.name ∨ files.SamePath m.module.name n.module.name := by
  have apart : ∀ {location path : String}, Specifier.isUrl location = true →
      location ≠ "file://" ++ path := by
    intro location path web same
    have head := head?_of_isUrl web
    rw [same, head?_file] at head
    exact absurd head (by decide)
  unfold FileTree.SamePath
  rw [first.url linkless, second.url linkless]
  simp only [Option.some.injEq, MetaValue.text.injEq]
  cases hm : Specifier.isUrl m.module.name with
  | true =>
    cases hn : Specifier.isUrl n.module.name with
    | true => simp only [if_true, Bool.true_eq_false, false_and, or_false]
    | false =>
      simp only [if_true, Bool.true_eq_false, Bool.false_eq_true, if_false, false_and, or_false]
      refine ⟨fun same => absurd same (apart hm), ?_⟩
      intro same
      rw [same, hn] at hm
      cases hm
  | false =>
    cases hn : Specifier.isUrl n.module.name with
    | true =>
      simp only [if_true, Bool.true_eq_false, Bool.false_eq_true, if_false, false_and, and_false,
        or_false]
      refine ⟨fun same => absurd same.symm (apart hn), ?_⟩
      intro same
      rw [same, hn] at hm
      cases hm
    | false =>
      simp only [Bool.false_eq_true, if_false, String.append_right_inj, true_and]
      refine ⟨Or.inr, ?_⟩
      rintro (same | same)
      · rw [same]
      · exact same

/-- The standard library is not loaded from a location, and its address is no loaded module's. -/
theorem Registered.Loaded.url_ne {files : FileTree} (linkless : files.Linkless) {m : Registered}
    (loaded : m.Loaded files) : m.url? ≠ some (.text Startup.libraryName) := by
  intro same
  rw [loaded.url linkless] at same
  have same := MetaValue.text.inj (Option.some.inj same)
  split at same
  · rename_i web
    have head := head?_of_isUrl web
    rw [same] at head
    exact absurd head (by decide)
  · have head := congrArg (fun s => s.toList.head?) same
    simp only [head?_file] at head
    exact absurd head (by decide)

theorem Registered.Loaded.of_same {files : FileTree} {m m' : Registered} (loaded : m.Loaded files)
    (module : m'.module = m.module) (importMeta : m'.importMeta = m.importMeta) :
    m'.Loaded files := by
  unfold Registered.Loaded
  rw [module, importMeta]
  exact loaded

theorem Registered.not_loaded {files : FileTree} (linkless : files.Linkless) {m : Registered}
    (h : m.importMeta = [] ∨ m.importMeta = Startup.libraryStamp) : ¬ m.Loaded files := by
  intro loaded
  rcases h with h | h
  · have address := loaded.url linkless
    unfold Registered.url? at address
    rw [h] at address
    cases address
  · apply loaded.url_ne linkless
    unfold Registered.url?
    rw [h]
    rfl

end Esm
