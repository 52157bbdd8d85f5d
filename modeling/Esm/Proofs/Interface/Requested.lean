-- SUMMARY: What an accepted module requests, exports and passes on.
import Esm.Proofs.Code.Atoms
import Esm.Proofs.Interface.Bound
import Esm.Proofs.Interface.Declared

/-!
# Requests of a module

Each reader of declarations finds a sentence of their grammar and takes over the specifiers of it: a
specifier is requested unless it has been requested before. So the requests of a module are its declared
specifiers, each once, in the order of their first occurrence. Main statement: `names_of_accepted`.
-/

namespace Esm.Interface

open Declared

/-- These specifiers are requested and passed on behind what was requested and passed on before. -/
structure Adds (m : Interface) (specifiers : List Specifier) (m' : Interface) : Prop where
  requests : ∀ values, Code.Tabulates values m.requests →
    Code.Tabulates (values ++ specifiers.map Specifier.value) m'.requests
  starExports : m'.starExports =
    m.starExports ++ (specifiers.filter Specifier.star).map Specifier.value

section

variable {stop : Nat} {m m' m'' : Interface} {keyword opener t : Token} {ts rest : List Token}
  {specifiers specifiers' : List Specifier}

theorem adds_nil (requests : m'.requests = m.requests) (starExports : m'.starExports = m.starExports) :
    Adds m [] m' := by
  refine ⟨fun values table => ?_, ?_⟩
  · rw [List.map_nil, List.append_nil, requests]
    exact table
  · rw [starExports]
    exact (List.append_nil _).symm

theorem Adds.trans (first : Adds m specifiers m') (second : Adds m' specifiers' m'') :
    Adds m (specifiers ++ specifiers') m'' := by
  refine ⟨fun values table => ?_, ?_⟩
  · have table := second.requests _ (first.requests values table)
    rwa [List.append_assoc, ← List.map_append] at table
  · rw [second.starExports, first.starExports, List.append_assoc, ← List.map_append,
      ← List.filter_append]

theorem requests_addRequest (m : Interface) (specifier : String) :
    (m.addRequest specifier).requests =
      if specifier ∈ m.requests then m.requests else m.requests ++ [specifier] := by
  unfold addRequest
  split <;> rfl

theorem adds_addRequest (m : Interface) (t : Token) :
    Adds m [⟨t, false⟩] (m.addRequest t.stringValue) := by
  refine ⟨fun values table => ?_, ?_⟩
  · rw [requests_addRequest]
    exact table.insert t.stringValue
  · rw [starExports_addRequest]
    exact (List.append_nil _).symm

theorem adds_addStar (m : Interface) (t : Token) :
    Adds m [⟨t, true⟩] (m.addStar t.stringValue) := by
  refine ⟨fun values table => ?_, ?_⟩
  · unfold addStar
    rw [requests_addRequest]
    exact table.insert t.stringValue
  · exact starExports_addRequest _ _

theorem adds_addExport {name : String} (added : m.addExport t name = .ok m') : Adds m [] m' :=
  adds_nil (requests_addExport added).1 (requests_addExport added).2

-- ---------------------------------------------------------------------------
-- Imports
-- ---------------------------------------------------------------------------

theorem isWord_of_word {text : String} (read : word stop text ts = .ok (t, rest)) :
    ts = t :: rest ∧ t.isWord text = true := by
  cases ts with
  | nil => cases read
  | cons u us =>
    simp only [word] at read
    split at read
    · rename_i proper
      cases read
      exact ⟨rfl, proper⟩
    · cases read

theorem fromClause_declared {star : Bool} {add : String → Interface}
    (adds : ∀ t : Token, Adds m [⟨t, star⟩] (add t.stringValue))
    (call : fromClause stop keyword add ts = .ok (m', rest)) :
    ∃ specifiers, Clause star ts specifiers rest ∧ Adds m specifiers m' := by
  unfold fromClause at call
  split at call
  · rename_i next
    obtain ⟨⟨t, left⟩, read, h⟩ := bind_eq_ok.1 call
    obtain ⟨tail, kind⟩ := tokenOf_ok read
    obtain ⟨word, whole, isFrom⟩ := eq_cons_of_nextIs next
    cases h
    rw [whole, tail]
    exact ⟨_, .mk isFrom kind, adds t⟩
  · cases call

theorem addRequest_declared (call : fromClause stop keyword m.addRequest ts = .ok (m', rest)) :
    ∃ specifiers, Clause false ts specifiers rest ∧ Adds m specifiers m' :=
  fromClause_declared (adds_addRequest m) call

theorem dropWhile_of_skipImportList (call : skipImportList opener ts = .ok rest) :
    ∃ closer, ts.dropWhile (·.text ≠ "\x7d") = closer :: rest := by
  induction ts with
  | nil => cases call
  | cons t ts ih =>
    simp only [skipImportList] at call
    split at call
    · rename_i closing
      cases call
      exact ⟨t, by simp [closing]⟩
    · rename_i inside
      obtain ⟨closer, ends⟩ := ih call
      exact ⟨closer, by simpa [inside] using ends⟩

theorem importBindings_declared (call : importBindings stop keyword m ts = .ok (m', rest)) :
    ∃ ts' specifiers, Bindings ts ts' ∧ Clause false ts' specifiers rest ∧ Adds m specifiers m' := by
  cases ts with
  | nil => cases call
  | cons t ts =>
    simp only [importBindings] at call
    split at call
    · rename_i star
      obtain ⟨⟨as, left⟩, read, call⟩ := bind_eq_ok.1 call
      obtain ⟨⟨name, left'⟩, read', call⟩ := bind_eq_ok.1 call
      obtain ⟨whole, isAs⟩ := isWord_of_word read
      obtain ⟨tail, kind⟩ := tokenOf_ok read'
      obtain ⟨specifiers, clause, adds⟩ := addRequest_declared call
      have tail : left = name :: left' := tail
      rw [whole, tail]
      exact ⟨left', specifiers, .namespace_ star isAs kind, clause, adds⟩
    · split at call
      · rename_i brace
        obtain ⟨left, read, call⟩ := bind_eq_ok.1 call
        obtain ⟨closer, ends⟩ := dropWhile_of_skipImportList read
        obtain ⟨specifiers, clause, adds⟩ := addRequest_declared call
        exact ⟨left, specifiers, .list brace ends, clause, adds⟩
      · cases call

theorem importDeclaration_declared (call : importDeclaration stop keyword m ts = .ok (m', rest)) :
    ∃ specifiers, Import ts specifiers rest ∧ Adds m specifiers m' := by
  cases ts with
  | nil => cases call
  | cons t ts =>
    simp only [importDeclaration] at call
    split at call
    · rename_i mark
      cases call
      exact ⟨[], .expression (Bool.or_eq_true _ _ ▸ mark), adds_nil rfl rfl⟩
    · split at call
      · rename_i kind
        cases call
        exact ⟨_, .module_ kind, adds_addRequest m t⟩
      · rename_i kind
        split at call
        · cases call
        · split at call
          · rename_i next
            obtain ⟨comma, whole, isComma⟩ := eq_cons_of_nextIs next
            obtain ⟨ts', specifiers, bindings, clause, adds⟩ := importBindings_declared call
            rw [whole]
            exact ⟨specifiers, .both kind isComma bindings clause, adds⟩
          · obtain ⟨specifiers, clause, adds⟩ := addRequest_declared call
            exact ⟨specifiers, .default_ kind clause, adds⟩
      · obtain ⟨ts', specifiers, bindings, clause, adds⟩ := importBindings_declared call
        exact ⟨specifiers, .names bindings clause, adds⟩

-- ---------------------------------------------------------------------------
-- Exports
-- ---------------------------------------------------------------------------

theorem bindingName_label {name : String} (read : bindingName t = .ok name) : IsLabel t := by
  unfold bindingName at read
  split at read
  · rename_i kind
    exact Or.inl kind
  · rename_i kind
    exact Or.inr kind
  · cases read

theorem exportItem_declared (open_ : t.text ≠ "\x7d")
    (call : exportItem stop m t ts = .ok (m', rest)) :
    ∃ item, t :: ts = item ++ rest ∧ Item item ∧ Adds m [] m' := by
  obtain ⟨name, named, call⟩ := bind_eq_ok.1 call
  split at call
  · rename_i next
    obtain ⟨⟨exported, left⟩, read, call⟩ := bind_eq_ok.1 call
    obtain ⟨alias_, named', call⟩ := bind_eq_ok.1 call
    obtain ⟨m₁, added, call⟩ := bind_eq_ok.1 call
    obtain ⟨as, whole, isAs⟩ := eq_cons_of_nextIs next
    cases call
    rw [whole, anyToken_ok read]
    exact ⟨[t, as, exported], rfl, .renamed (bindingName_label named) open_ isAs
      (bindingName_label named'), adds_addExport added⟩
  · obtain ⟨m₁, added, call⟩ := bind_eq_ok.1 call
    cases call
    exact ⟨[t], rfl, .plain (bindingName_label named) open_, adds_addExport added⟩

theorem exportSeparator_ok {more : Bool} (read : exportSeparator stop ts = .ok (more, rest)) :
    ∃ t, ts = t :: rest ∧ t.text = if more then "," else "\x7d" := by
  cases ts with
  | nil => cases read
  | cons t ts =>
    simp only [exportSeparator] at read
    split at read
    · rename_i comma
      cases read
      exact ⟨t, rfl, comma⟩
    · split at read
      · rename_i brace
        cases read
        exact ⟨t, rfl, brace⟩
      · cases read

theorem exportList_declared (call : exportList stop m ts = .ok (m', rest)) :
    Items ts rest ∧ Adds m [] m' := by
  fun_induction exportList stop m ts with
  | case1 => cases call
  | case2 m t ts brace =>
    cases call
    exact ⟨.none brace, adds_nil rfl rfl⟩
  | case3 => cases call
  | case4 => cases call
  | case5 m t ts open_ m₁ ts' read ts'' read' ih =>
    obtain ⟨item, whole, isItem, adds⟩ := exportItem_declared open_ read
    obtain ⟨comma, tail, isComma⟩ := exportSeparator_ok read'
    obtain ⟨items, adds'⟩ := ih call
    rw [whole, tail]
    exact ⟨.cons isItem isComma items, adds.trans adds'⟩
  | case6 m t ts open_ m₁ ts' read ts'' read' =>
    obtain ⟨item, whole, isItem, adds⟩ := exportItem_declared open_ read
    obtain ⟨closer, tail, closing⟩ := exportSeparator_ok read'
    cases call
    rw [whole, tail]
    exact ⟨.last isItem closing, adds⟩

theorem adds_exportWords (call : exportWords m ts = .ok m') : Adds m [] m' := by
  induction ts generalizing m with
  | nil =>
    cases call
    exact adds_nil rfl rfl
  | cons t ts ih =>
    obtain ⟨m₁, added, call⟩ := bind_eq_ok.1 call
    exact (adds_addExport added).trans (ih call)

theorem isDelimiter_cases (delimiter : isDelimiter t = true) : t.kind = .punctuator ∧
    ((closerOf t.text).isSome = true ∨ (closerOf t.text).isSome = false ∧ isCloser t.text = true) := by
  simp only [isDelimiter, Bool.and_eq_true, Bool.or_eq_true, beq_iff_eq] at delimiter
  obtain ⟨kind, opens | closes⟩ := delimiter
  · exact ⟨kind, Or.inl opens⟩
  · exact ⟨kind, Or.inr ⟨by rw [closerOf_eq_none closes]; rfl, closes⟩⟩

theorem bindingPattern_declared {depth : Nat} {inDefault : Bool}
    (call : bindingPattern stop m depth inDefault ts = .ok (m', rest)) :
    Pattern depth ts rest ∧ Adds m [] m' := by
  induction ts generalizing m depth inDefault with
  | nil => cases call
  | cons t ts ih =>
    by_cases delimiter : isDelimiter t = true
    · obtain ⟨kind, opens | ⟨shuts, closes⟩⟩ := isDelimiter_cases delimiter
      · rw [bindingPattern_opener inDefault stop m depth kind opens] at call
        obtain ⟨pattern, adds⟩ := ih call
        exact ⟨.opener kind opens pattern, adds⟩
      · rw [bindingPattern_closer inDefault stop m depth kind shuts closes] at call
        split at call
        · rename_i outermost
          cases call
          exact ⟨.last kind closes outermost, adds_nil rfl rfl⟩
        · rename_i inner
          obtain ⟨n, rfl⟩ : ∃ n, depth = n + 2 := ⟨depth - 2, by omega⟩
          obtain ⟨pattern, adds⟩ := ih call
          exact ⟨.closer kind closes pattern, adds⟩
    · have plain : isDelimiter t = false := Bool.eq_false_iff.2 delimiter
      rw [bindingPattern_plain inDefault stop m depth plain] at call
      obtain ⟨m₁, exported, call⟩ := bind_eq_ok.1 call
      obtain ⟨pattern, adds⟩ := ih call
      exact ⟨.other plain pattern, (adds_exportWords exported).trans adds⟩

theorem exportedName_declared (call : exportedName stop m ts = .ok (m', rest)) :
    ∃ name, ts = name :: rest ∧ name.kind = .identifier ∧ Adds m [] m' := by
  obtain ⟨⟨t, left⟩, read, call⟩ := bind_eq_ok.1 call
  obtain ⟨m₁, added, call⟩ := bind_eq_ok.1 call
  obtain ⟨tail, kind⟩ := tokenOf_ok read
  cases call
  exact ⟨t, tail, kind, adds_addExport added⟩

theorem exportedFunction_declared (call : exportedFunction stop m ts = .ok (m', rest)) :
    FunctionName ts rest ∧ Adds m [] m' := by
  obtain ⟨name, tail, kind, adds⟩ := exportedName_declared call
  split at tail
  · rename_i next
    obtain ⟨star, whole, isStar⟩ := eq_cons_of_nextIs next
    rw [whole, tail]
    exact ⟨.generator isStar kind, adds⟩
  · rw [tail]
    exact ⟨.plain kind, adds⟩

theorem exportedBinding_declared (declarator : IsDeclarator t)
    (call : exportedBinding stop keyword m ts = .ok (m', rest)) :
    Export (t :: ts) [] rest ∧ Adds m [] m' := by
  cases ts with
  | nil => cases call
  | cons u ts =>
    simp only [exportedBinding] at call
    split at call
    · rename_i kind
      obtain ⟨m₁, added, call⟩ := bind_eq_ok.1 call
      cases call
      exact ⟨.binding declarator kind, adds_addExport added⟩
    · split at call
      · rename_i bracket
        obtain ⟨pattern, adds⟩ := bindingPattern_declared call
        exact ⟨.pattern declarator (Bool.or_eq_true _ _ ▸ bracket) pattern, adds⟩
      · cases call

theorem exportedStar_declared (star : t.isPunctuator "*" = true)
    (call : exportedStar stop keyword m ts = .ok (m', rest)) :
    ∃ specifiers, Export (t :: ts) specifiers rest ∧ Adds m specifiers m' := by
  unfold exportedStar at call
  split at call
  · rename_i next
    obtain ⟨⟨exported, left⟩, read, call⟩ := bind_eq_ok.1 call
    obtain ⟨name, named, call⟩ := bind_eq_ok.1 call
    obtain ⟨m₁, added, call⟩ := bind_eq_ok.1 call
    obtain ⟨as, whole, isAs⟩ := eq_cons_of_nextIs next
    obtain ⟨specifiers, clause, adds⟩ := addRequest_declared call
    rw [whole, anyToken_ok read]
    exact ⟨specifiers, .namespace_ star isAs (bindingName_label named) clause,
      (adds_addExport added).trans adds⟩
  · obtain ⟨specifiers, clause, adds⟩ := fromClause_declared (adds_addStar m) call
    exact ⟨specifiers, .star star clause, adds⟩

theorem exportDeclaration_declared (call : exportDeclaration stop keyword m ts = .ok (m', rest)) :
    ∃ specifiers, Export ts specifiers rest ∧ Adds m specifiers m' := by
  cases ts with
  | nil => cases call
  | cons t ts =>
    simp only [exportDeclaration] at call
    split at call
    · rename_i word
      obtain ⟨m₁, added, call⟩ := bind_eq_ok.1 call
      cases call
      exact ⟨[], .default_ word, adds_addExport added⟩
    split at call
    · rename_i star
      exact exportedStar_declared star call
    split at call
    · rename_i brace
      obtain ⟨⟨m₁, left⟩, read, call⟩ := bind_eq_ok.1 call
      obtain ⟨items, adds⟩ := exportList_declared read
      dsimp only at call
      split at call
      · obtain ⟨specifiers, clause, adds'⟩ := addRequest_declared call
        exact ⟨specifiers, .listFrom brace items clause, adds.trans adds'⟩
      · rename_i none
        cases call
        exact ⟨[], .list brace items (Bool.eq_false_iff.2 none), adds⟩
    split at call
    · rename_i declarator
      have declarator : IsDeclarator t := by
        unfold IsDeclarator
        simpa only [Bool.or_eq_true, or_assoc] using declarator
      obtain ⟨form, adds⟩ := exportedBinding_declared declarator call
      exact ⟨[], form, adds⟩
    split at call
    · rename_i async
      obtain ⟨⟨function, left⟩, read, call⟩ := bind_eq_ok.1 call
      obtain ⟨whole, isFunction⟩ := isWord_of_word read
      obtain ⟨name, adds⟩ := exportedFunction_declared call
      rw [whole]
      exact ⟨[], .async async isFunction name, adds⟩
    split at call
    · rename_i function
      obtain ⟨name, adds⟩ := exportedFunction_declared call
      exact ⟨[], .function function name, adds⟩
    split at call
    · rename_i class_
      obtain ⟨name, tail, kind, adds⟩ := exportedName_declared call
      rw [tail]
      exact ⟨[], .class_ class_ kind, adds⟩
    · cases call

-- ---------------------------------------------------------------------------
-- Modules
-- ---------------------------------------------------------------------------

theorem statements_declared {opened : List Token} {afterDot : Bool}
    (call : statements stop m opened afterDot ts = .ok m') :
    ∃ specifiers, Declares opened.length afterDot ts specifiers ∧ Adds m specifiers m' := by
  fun_induction statements stop m opened afterDot ts with
  | case1 =>
    cases call
    exact ⟨[], .nil, adds_nil rfl rfl⟩
  | case2 | case5 | case6 | case8 | case10 => cases call
  | case3 m opened afterDot t ts kind opens ih =>
    obtain ⟨specifiers, declares, adds⟩ := ih call
    exact ⟨specifiers, .opener kind opens declares, adds⟩
  | case4 m afterDot t ts kind _ closes opener opened _ ih =>
    obtain ⟨specifiers, declares, adds⟩ := ih call
    exact ⟨specifiers, .closer kind closes declares, adds⟩
  | case7 m opened afterDot t ts kind plain plain' ih =>
    obtain ⟨specifiers, declares, adds⟩ := ih call
    have plain : isDelimiter t = false := by
      simp [isDelimiter, plain, plain']
    refine ⟨specifiers, .pass plain (fun _ _ => ?_) declares, adds⟩
    simp [Token.isWord, kind]
  | case9 m opened afterDot t ts other starts m₁ ts' read ih =>
    obtain ⟨word, rfl, rfl⟩ := starts_eq starts
    obtain ⟨specifiers, form, adds⟩ := importDeclaration_declared read
    obtain ⟨specifiers', declares, adds'⟩ := ih call
    exact ⟨specifiers ++ specifiers', .import_ word form declares, adds.trans adds'⟩
  | case11 m opened afterDot t ts other _ starts m₁ ts' read ih =>
    obtain ⟨word, rfl, rfl⟩ := starts_eq starts
    obtain ⟨specifiers, form, adds⟩ := exportDeclaration_declared read
    obtain ⟨specifiers', declares, adds'⟩ := ih call
    exact ⟨specifiers ++ specifiers', .export_ word form declares, adds.trans adds'⟩
  | case12 m opened afterDot t ts other noImport noExport ih =>
    obtain ⟨specifiers, declares, adds⟩ := ih call
    have plain : isDelimiter t = false := isDelimiter_of_kind rfl other
    refine ⟨specifiers, .pass plain (fun outside free => ?_) declares, adds⟩
    obtain rfl := List.length_eq_zero_iff.1 outside
    simpa [free] using And.intro noImport noExport

/-- An interface that is read off tokens has no request and no export twice. Its requests are the
specifiers that the tokens declare, in the order of their first occurrence, and each is the value of a
string; those with a star are passed on. Each export is the text of a word, as is `default`, or the value
of a string. -/
theorem names_of_accepted (call : ofTokens stop ts = .ok m) :
    m.requests.Nodup ∧ m.exports.Nodup ∧ m.starExports ⊆ m.requests ∧
    (∃ specifiers, Declares 0 false ts specifiers ∧
      (∀ others, Declares 0 false ts others → others = specifiers) ∧
      Code.Tabulates (specifiers.map Specifier.value) m.requests ∧
      m.starExports = (specifiers.filter Specifier.star).map Specifier.value) ∧
    (∀ request ∈ m.requests, ∃ t ∈ ts, t.kind = .string ∧ t.stringValue = request) ∧
    ∀ name ∈ m.exports, ∃ t ∈ ts, t.kind = .identifier ∧ t.text = name ∨
      t.kind = .string ∧ t.stringValue = name := by
  obtain ⟨specifiers, declares, adds⟩ := statements_declared call
  have table : Code.Tabulates (specifiers.map Specifier.value) m.requests :=
    adds.requests [] ⟨Iff.rfl, .nil⟩
  have stars : m.starExports = (specifiers.filter Specifier.star).map Specifier.value :=
    adds.starExports
  refine ⟨table.nodup, exports_nodup call, ?_, ⟨specifiers, declares,
    fun others declares' => declares'.unique declares, table, stars⟩, ?_, ?_⟩
  · rw [stars]
    intro specifier mem
    exact table.mem.2 (List.map_subset _ ((List.filter_subset_self _)) mem)
  · intro request mem
    obtain ⟨t, among, given⟩ := List.mem_filterMap.1 ((requests_sublist call).subset mem)
    exact ⟨t, among, string_of_specifier? given⟩
  · intro name mem
    obtain ⟨t, among, given⟩ := List.mem_filterMap.1 ((exports_sublist call).subset mem)
    exact ⟨t, among, label_of_name? given⟩

/-- A specifier that is declared twice is requested where it is declared first. -/
theorem names_of_accepted_twice : ∃ ts, ofTokens 64 ts = .ok ⟨["m", "n"], ["b"], ["n"]⟩ ∧
    ∃ specifiers, Declares 0 false ts specifiers ∧
      specifiers.map Specifier.value = ["m", "n", "m"] ∧
      Code.Tabulates ["m", "n", "m"] ["m", "n"] := by
  -- `import a from 'm'; export * from 'n'; export { a as b } from "m"`
  let ts : List Token := [⟨.identifier, 0, "import"⟩, ⟨.identifier, 7, "a"⟩, ⟨.identifier, 9, "from"⟩,
    ⟨.string, 14, "'m'"⟩, ⟨.punctuator, 17, ";"⟩, ⟨.identifier, 19, "export"⟩, ⟨.punctuator, 26, "*"⟩,
    ⟨.identifier, 28, "from"⟩, ⟨.string, 33, "'n'"⟩, ⟨.punctuator, 36, ";"⟩,
    ⟨.identifier, 38, "export"⟩, ⟨.punctuator, 45, "\x7b"⟩, ⟨.identifier, 47, "a"⟩,
    ⟨.identifier, 49, "as"⟩, ⟨.identifier, 52, "b"⟩, ⟨.punctuator, 54, "\x7d"⟩,
    ⟨.identifier, 56, "from"⟩, ⟨.string, 61, "\"m\""⟩]
  have call : ofTokens 64 ts = .ok ⟨["m", "n"], ["b"], ["n"]⟩ :=
    eq_ok_of_toOption (by decide +kernel)
  have declared : Declares 0 false ts [⟨⟨.string, 14, "'m'"⟩, false⟩, ⟨⟨.string, 33, "'n'"⟩, true⟩,
      ⟨⟨.string, 61, "\"m\""⟩, false⟩] :=
    .import_ rfl (.default_ rfl (.mk rfl rfl)) <| .pass rfl (fun _ _ => ⟨rfl, rfl⟩) <|
    .export_ rfl (.star rfl (.mk rfl rfl)) <| .pass rfl (fun _ _ => ⟨rfl, rfl⟩) <|
    .export_ rfl (.listFrom rfl (.last (.renamed (Or.inl rfl) (by decide) rfl (Or.inl rfl)) rfl)
      (.mk rfl rfl)) .nil
  obtain ⟨-, -, -, ⟨specifiers, -, unique, table, -⟩, -⟩ := names_of_accepted call
  obtain rfl := unique _ declared
  exact ⟨ts, call, _, declared, by decide, table⟩

end

end Esm.Interface
