-- SUMMARY: The interface read off the tokens of a module is what its statements say.
import Esm.Proofs.Interface.Followed
import Esm.Proofs.Interface.Grammar
import Mathlib.Data.List.Nodup

/-!
# Statements

Reading the tokens of a statement adds to the interface what the statement says and stops behind
them, whatever names it has and whatever follows its semicolon. So a module is refused exactly if
it exports a name twice, and otherwise its interface is what its statements say in their order.
-/

namespace Esm.Grammar

open Interface

variable (stop : Nat) (m : Interface)

-- ---------------------------------------------------------------------------
-- Tokens
-- ---------------------------------------------------------------------------

theorem Lexed.isPunctuator_eq_false {kind : TokenKind} (t : Lexed kind) (other : kind ≠ .punctuator)
    (text : String) : t.token.isPunctuator text = false := by
  simp [Token.isPunctuator, t.kind_eq, other]

/-- Words and strings are no closing braces. -/
theorem Lexed.text_ne {kind : TokenKind} (t : Lexed kind)
    (named : kind = .identifier ∨ kind = .string) : t.token.text ≠ "\x7d" :=
  t.scanned.text_ne (by rwa [t.kind_eq]) (c := '\x7d') (by decide) (by decide)

theorem Label.text_ne (label : Label) : label.token.text ≠ "\x7d" := by
  cases label with
  | word name => exact name.text_ne (Or.inl rfl)
  | string literal => exact literal.text_ne (Or.inr rfl)

theorem bindingName_label (label : Label) : bindingName label.token = .ok label.value := by
  cases label with
  | word name => simp only [bindingName, Label.token, Label.value, name.kind_eq]
  | string literal => simp only [bindingName, Label.token, Label.value, literal.kind_eq]

theorem separated_cons_cons (part part' : List Token) (parts : List (List Token)) :
    separated (part :: part' :: parts) = part ++ mark "," :: separated (part' :: parts) := by
  unfold separated
  rw [List.intercalate_cons_cons, List.append_assoc, List.singleton_append]

theorem mem_separated {parts : List (List Token)} {t : Token} (mem : t ∈ separated parts) :
    t = mark "," ∨ ∃ part ∈ parts, t ∈ part := by
  induction parts with
  | nil => cases mem
  | cons part parts ih =>
    cases parts with
    | nil => exact Or.inr ⟨part, List.mem_singleton_self part, by simpa [separated] using mem⟩
    | cons part' parts =>
      rw [separated_cons_cons, List.mem_append, List.mem_cons] at mem
      obtain mem | rfl | mem := mem
      · exact Or.inr ⟨part, List.mem_cons_self, mem⟩
      · exact Or.inl rfl
      · obtain comma | ⟨other, among, mem⟩ := ih mem
        · exact Or.inl comma
        · exact Or.inr ⟨other, List.mem_cons_of_mem part among, mem⟩

-- ---------------------------------------------------------------------------
-- Imports
-- ---------------------------------------------------------------------------

theorem fromClause_clause (opener : Token) (add : String → Interface) (specifier : Literal)
    (rest : List Token) : fromClause stop opener add (clause specifier ++ rest) =
      .ok (add specifier.token.stringValue, rest) := by
  have isString : tokenOf stop .string (specifier.token :: rest) = .ok (specifier.token, rest) :=
    if_pos specifier.kind_eq
  unfold fromClause
  rw [if_pos (show nextIs (Token.isWord · "from") (clause specifier ++ rest) = true from rfl)]
  show (tokenOf stop .string (specifier.token :: rest) >>= _) = _
  rw [isString]
  rfl

theorem skipImportList_append (opener : Token) {ts : List Token}
    (inside : ∀ t ∈ ts, t.text ≠ "\x7d") (rest : List Token) :
    skipImportList opener (ts ++ mark "\x7d" :: rest) = .ok rest := by
  induction ts with
  | nil => rfl
  | cons t ts ih =>
    obtain ⟨first, others⟩ := List.forall_mem_cons.1 inside
    rw [List.cons_append, skipImportList, if_neg first, ih others]

theorem ImportItem.text_ne (item : ImportItem) : ∀ t ∈ item.tokens, t.text ≠ "\x7d" := by
  cases item with
  | plain name => simpa [tokens] using name.text_ne (Or.inl rfl)
  | renamed label name =>
    have as : (keyword "as").text ≠ "\x7d" := by decide
    simpa [tokens] using ⟨label.text_ne, as, name.text_ne (Or.inl rfl)⟩

theorem importItems_text_ne (items : List ImportItem) :
    ∀ t ∈ separated (items.map ImportItem.tokens), t.text ≠ "\x7d" := by
  intro t mem
  obtain rfl | ⟨part, among, mem⟩ := mem_separated mem
  · decide
  · obtain ⟨item, -, rfl⟩ := List.mem_map.1 among
    exact item.text_ne t mem

theorem importBindings_bindings (opener : Token) (bindings : Bindings) (specifier : Literal)
    (rest : List Token) :
    importBindings stop opener m (bindings.tokens ++ (clause specifier ++ rest)) =
      .ok (m.addRequest specifier.token.stringValue, rest) := by
  cases bindings with
  | namespace_ name =>
    let us := clause specifier ++ rest
    have isName : tokenOf stop .identifier (name.token :: us) = .ok (name.token, us) :=
      if_pos name.kind_eq
    show (tokenOf stop .identifier (name.token :: us) >>= _) = _
    rw [isName]
    exact fromClause_clause stop opener m.addRequest specifier rest
  | list items =>
    let us := clause specifier ++ rest
    let inside := separated (items.map ImportItem.tokens)
    have skipped : skipImportList (mark "\x7b") (inside ++ mark "\x7d" :: us) = .ok us :=
      skipImportList_append _ (importItems_text_ne items) us
    show (skipImportList (mark "\x7b") (inside ++ [mark "\x7d"] ++ us) >>= _) = _
    rw [List.append_assoc, List.singleton_append, skipped]
    exact fromClause_clause stop opener m.addRequest specifier rest

theorem importDeclaration_literal (opener : Token) (specifier : Literal) (rest : List Token) :
    importDeclaration stop opener m (specifier.token :: rest) =
      .ok (m.addRequest specifier.token.stringValue, rest) := by
  simp only [importDeclaration, specifier.isPunctuator_eq_false (by decide), specifier.kind_eq,
    Bool.or_self, Bool.false_eq_true, if_false]

/-- Behind a default binding the next token tells whether there are more. -/
theorem importDeclaration_name (opener : Token) (name : Name) {ts : List Token}
    (unlike : nextIs (fun next => next.kind == .string) ts = false) :
    importDeclaration stop opener m (name.token :: ts) =
      if nextIs (Token.isPunctuator · ",") ts then importBindings stop opener m ts.tail
      else fromClause stop opener m.addRequest ts := by
  simp only [importDeclaration, name.isPunctuator_eq_false (by decide), name.kind_eq, unlike,
    Bool.or_self, Bool.and_false, Bool.false_eq_true, if_false]

theorem importDeclaration_bindings (opener : Token) (bindings : Bindings) (specifier : Literal)
    (rest : List Token) :
    importDeclaration stop opener m (bindings.tokens ++ (clause specifier ++ rest)) =
      .ok (m.addRequest specifier.token.stringValue, rest) := by
  have read := importBindings_bindings stop m opener bindings specifier rest
  cases bindings with
  | namespace_ name => exact read
  | list items => exact read

-- ---------------------------------------------------------------------------
-- Exports
-- ---------------------------------------------------------------------------

/-- Export labels one after the other. -/
def exportAll (m : Interface) : List Label → Except Failure Interface
  | [] => .ok m
  | label :: labels => do exportAll (← m.addExport label.token label.value) labels

theorem exportItem_item (item : ExportItem) {next : Token} (ends : next.isWord "as" = false)
    (rest : List Token) : exportItem stop m item.label.token (item.alias_ ++ next :: rest) = (do
      let m ← m.addExport item.exported.token item.exported.value
      .ok (m, next :: rest)) := by
  obtain ⟨label, renamed⟩ := item
  unfold exportItem
  rw [bindingName_label]
  cases renamed with
  | none =>
    have unnamed : ¬ nextIs (Token.isWord · "as") (next :: rest) = true := by
      show ¬ next.isWord "as" = true
      rw [ends]
      decide
    exact if_neg unnamed
  | some label' =>
    show (bindingName label'.token >>= _) = _
    rw [bindingName_label]
    rfl

theorem exportList_item (item : ExportItem) {next : Token} (ends : next.isWord "as" = false)
    (rest : List Token) : exportList stop m (item.tokens ++ next :: rest) = (do
      let m ← m.addExport item.exported.token item.exported.value
      let (more, ts) ← exportSeparator stop (next :: rest)
      if more then exportList stop m ts else .ok (m, ts)) := by
  have inside : ¬ item.label.token.text = "\x7d" := item.label.text_ne
  show exportList stop m (item.label.token :: (item.alias_ ++ next :: rest)) = _
  rw [exportList_cons, if_neg inside, exportItem_item stop m item ends, bind_assoc]
  rfl

theorem exportList_items (items : List ExportItem) (rest : List Token) :
    exportList stop m (separated (items.map ExportItem.tokens) ++ mark "\x7d" :: rest) = (do
      let m ← exportAll m (items.map ExportItem.exported)
      .ok (m, rest)) := by
  induction items generalizing m with
  | nil => exact exportList_cons stop m (mark "\x7d") rest
  | cons item items ih =>
    rw [List.map_cons, List.map_cons, exportAll, bind_assoc]
    cases items with
    | nil =>
      have single : separated [item.tokens] = item.tokens := List.intercalate_singleton
      rw [List.map_nil, single, exportList_item stop m item rfl]
      exact bind_congr fun m' => rfl
    | cons item' items =>
      rw [List.map_cons, separated_cons_cons, List.append_assoc, List.cons_append,
        exportList_item stop m item rfl]
      exact bind_congr fun m' => ih m'

theorem exportAll_singleton (label : Label) :
    exportAll m [label] = m.addExport label.token label.value := by
  show (m.addExport label.token label.value >>= pure) = _
  rw [bind_pure]

theorem exportedName_name (name : Name) (rest : List Token) :
    exportedName stop m (name.token :: rest) = (do
      let m ← exportAll m [.word name]
      .ok (m, rest)) := by
  have isName : tokenOf stop .identifier (name.token :: rest) = .ok (name.token, rest) :=
    if_pos name.kind_eq
  unfold exportedName
  rw [isName, exportAll_singleton]
  rfl

/-- Behind `function` there may be a star. -/
theorem exportedFunction_name (generator : Bool) (name : Name) (rest : List Token) :
    exportedFunction stop m ((if generator then [mark "*"] else []) ++ name.token :: rest) = (do
      let m ← exportAll m [.word name]
      .ok (m, rest)) := by
  have read := exportedName_name stop m name rest
  cases generator with
  | true => exact read
  | false =>
    have noStar : ¬ nextIs (Token.isPunctuator · "*") (name.token :: rest) = true := by
      show ¬ name.token.isPunctuator "*" = true
      rw [name.isPunctuator_eq_false (by decide)]
      decide
    unfold exportedFunction
    exact (congrArg (exportedName stop m) (if_neg noStar)).trans read

variable (opener : Token)

theorem exportDeclaration_default (rest : List Token) :
    exportDeclaration stop opener m (keyword "default" :: rest) = (do
      let m ← exportAll m [defaultLabel]
      .ok (m, rest)) := by
  rw [exportAll_singleton]
  rfl

theorem exportDeclaration_list (items : List ExportItem) (specifier : Option Literal) (next : Token)
    (ends : next.isWord "from" = false) (rest : List Token) :
    exportDeclaration stop opener m (mark "\x7b" :: (separated (items.map ExportItem.tokens) ++
      mark "\x7d" :: (specifier.elim [] clause ++ next :: rest))) = (do
        let m ← exportAll m (items.map ExportItem.exported)
        .ok (specifier.elim m (m.addRequest ·.token.stringValue), next :: rest)) := by
  let us := specifier.elim [] clause ++ next :: rest
  show (exportList stop m (separated (items.map ExportItem.tokens) ++ mark "\x7d" :: us) >>= _) = _
  rw [exportList_items, bind_assoc]
  refine bind_congr fun m' => ?_
  cases specifier with
  | none =>
    have noClause : ¬ nextIs (Token.isWord · "from") (next :: rest) = true := by
      show ¬ next.isWord "from" = true
      rw [ends]
      decide
    exact if_neg noClause
  | some specifier => exact fromClause_clause stop opener m'.addRequest specifier (next :: rest)

theorem exportDeclaration_star (specifier : Literal) (rest : List Token) :
    exportDeclaration stop opener m (mark "*" :: (clause specifier ++ rest)) =
      .ok (m.addStar specifier.token.stringValue, rest) :=
  fromClause_clause stop opener m.addStar specifier rest

theorem exportDeclaration_namespace (label : Label) (specifier : Literal) (rest : List Token) :
    exportDeclaration stop opener m (mark "*" :: keyword "as" :: label.token ::
      (clause specifier ++ rest)) = (do
        let m ← exportAll m [label]
        .ok (m.addRequest specifier.token.stringValue, rest)) := by
  show (bindingName label.token >>= _) = _
  rw [bindingName_label, exportAll_singleton]
  exact bind_congr fun m' => fromClause_clause stop opener (addRequest m') specifier rest

theorem exportDeclaration_binding (declarator : Declarator) (name : Name) (rest : List Token) :
    exportDeclaration stop opener m (declarator.keyword :: name.token :: rest) = (do
      let m ← exportAll m [.word name]
      .ok (m, rest)) := by
  have read : exportedBinding stop declarator.keyword m (name.token :: rest) = _ :=
    if_pos name.kind_eq
  rw [exportAll_singleton]
  cases declarator with
  | const_ => exact read
  | let_ => exact read
  | var_ => exact read

theorem exportDeclaration_function (async generator : Bool) (name : Name) (rest : List Token) :
    exportDeclaration stop opener m ((if async then [keyword "async"] else []) ++
      keyword "function" :: ((if generator then [mark "*"] else []) ++ name.token :: rest)) = (do
        let m ← exportAll m [.word name]
        .ok (m, rest)) := by
  have read := exportedFunction_name stop m generator name rest
  cases async with
  | true => exact read
  | false => exact read

-- ---------------------------------------------------------------------------
-- Statements
-- ---------------------------------------------------------------------------

variable {opener} {ts us : List Token} (rest : List Token)

/-- Code up to a semicolon adds nothing. -/
theorem statements_passage (code : Passage) :
    statements stop m [] false (code.tokens ++ mark ";" :: rest) =
      statements stop (m.join ⟨[], [], []⟩) [] false rest := by
  have same : m.join ⟨[], [], []⟩ = m := join_empty m
  rw [same]
  exact statements_silent stop m false code.silent 0 rest

/-- Behind a specifier that is requested there is a semicolon. -/
theorem statements_addRequest (specifier : Literal) :
    statements stop (m.addRequest specifier.token.stringValue) [] false (mark ";" :: rest) =
      statements stop (m.join ⟨[specifier.token.stringValue], [], []⟩) [] false rest := by
  rw [addRequest_eq_join]
  exact statements_semicolon stop _ false rest 0

variable {stop m rest}

theorem statements_importing {specifier : Literal}
    (read : importDeclaration stop (keyword "import") m ts =
      .ok (m.addRequest specifier.token.stringValue, mark ";" :: rest)) :
    statements stop m [] false (keyword "import" :: ts) =
      statements stop (m.join ⟨[specifier.token.stringValue], [], []⟩) [] false rest := by
  rw [statements_import _ _ _ rfl, read]
  exact statements_addRequest stop m rest specifier

/-- An export exports its labels, and what it leaves is read behind them. -/
theorem statements_exporting {labels : List Label} (note : Interface → Interface)
    {note' : Interface → Interface}
    (read : exportDeclaration stop (keyword "export") m ts = (do
      let m ← exportAll m labels
      .ok (note m, us)))
    (ends : ∀ m, statements stop (note m) [] false us = statements stop (note' m) [] false rest) :
    statements stop m [] false (keyword "export" :: ts) = (do
      let m ← exportAll m labels
      statements stop (note' m) [] false rest) := by
  rw [statements_export _ _ _ rfl, read, bind_assoc]
  exact bind_congr ends

/-- A statement exports its labels and adds what else it says to the interface; what comes behind
its semicolon is read next. -/
theorem statements_statement (s : Statement) (rest : List Token) :
    statements stop m [] false (s.tokens ++ mark ";" :: rest) = (do
      let m ← exportAll m s.exported
      statements stop (m.join ⟨s.requests, [], s.starExports⟩) [] false rest) := by
  let us := mark ";" :: rest
  have passes (code : Passage) (m : Interface) :
      statements stop m [] false (code.tokens ++ us) = _ := statements_passage stop m rest code
  cases s with
  | importModule specifier =>
    exact statements_importing (importDeclaration_literal stop m _ specifier us)
  | importDefault name specifier =>
    have read : importDeclaration stop (keyword "import") m (name.token ::
        (clause specifier ++ us)) = _ := importDeclaration_name stop m _ name rfl
    have named := fromClause_clause stop (keyword "import") m.addRequest specifier us
    exact statements_importing (read.trans named)
  | importBindings name bindings specifier =>
    cases name with
    | none =>
      simp only [Statement.tokens, List.cons_append, List.append_assoc]
      exact statements_importing (importDeclaration_bindings stop m _ bindings specifier us)
    | some name =>
      have bound := importBindings_bindings stop m (keyword "import") bindings specifier us
      have read : importDeclaration stop (keyword "import") m (name.token :: mark "," ::
          (bindings.tokens ++ (clause specifier ++ us))) = _ :=
        importDeclaration_name stop m _ name rfl
      simp only [Statement.tokens, List.cons_append, List.append_assoc]
      exact statements_importing (read.trans bound)
  | exportDefault code =>
    exact statements_exporting id (exportDeclaration_default stop m _ _) (passes code)
  | exportList items specifier =>
    have ends (m : Interface) :
        statements stop (specifier.elim m (m.addRequest ·.token.stringValue)) [] false us =
          statements stop (m.join ⟨(Statement.exportList items specifier).requests, [], []⟩) []
            false rest := by
      cases specifier with
      | none => exact statements_passage stop m rest ⟨[], .nil⟩
      | some specifier => exact statements_addRequest stop m rest specifier
    simp only [Statement.tokens, List.cons_append, List.append_assoc]
    exact statements_exporting _
      (exportDeclaration_list stop m _ items specifier (mark ";") rfl rest) ends
  | exportStar specifier =>
    have ends (m : Interface) :
        statements stop (m.addStar specifier.token.stringValue) [] false us =
          statements stop (m.join ⟨[specifier.token.stringValue], [],
            [specifier.token.stringValue]⟩) [] false rest := by
      rw [addStar_eq_join]
      exact statements_semicolon stop _ false rest 0
    have read := exportDeclaration_star stop m (keyword "export") specifier us
    exact statements_exporting (addStar · specifier.token.stringValue) read ends
  | exportNamespace label specifier =>
    exact statements_exporting _ (exportDeclaration_namespace stop m _ label specifier us)
      fun m => statements_addRequest stop m rest specifier
  | exportBinding declarator name code =>
    have ends (m : Interface) : statements stop m [] false (mark "=" :: (code.tokens ++ us)) = _ :=
      (statements_plain stop m [] false _ rfl fun _ _ => ⟨rfl, rfl⟩).trans (passes code m)
    exact statements_exporting id (exportDeclaration_binding stop m _ declarator name _) ends
  | exportFunction async generator name code =>
    have read := exportDeclaration_function stop m (keyword "export") async generator name
      (code.tokens ++ us)
    simp only [Statement.tokens, List.cons_append, List.append_assoc]
    exact statements_exporting id read (passes code)
  | exportClass name code =>
    exact statements_exporting id (exportedName_name stop m name _) (passes code)
  | plain code => exact passes code m

-- ---------------------------------------------------------------------------
-- Modules
-- ---------------------------------------------------------------------------

theorem exportAll_eq_ok {labels : List Label} {m m' : Interface} (distinct : m.exports.Nodup) :
    exportAll m labels = .ok m' ↔ (m.exports ++ labels.map Label.value).Nodup ∧
      m' = m.join ⟨[], labels.map Label.value, []⟩ := by
  induction labels generalizing m with
  | nil =>
    have same : m.join ⟨[], [], []⟩ = m := join_empty m
    simp [exportAll, same, distinct, eq_comm]
  | cons label labels ih =>
    have single : m.exports ++ label.value :: labels.map Label.value =
        (m.exports ++ [label.value]) ++ labels.map Label.value := by simp
    have joined : m.join ⟨[], label.value :: labels.map Label.value, []⟩ =
        (m.join ⟨[], [label.value], []⟩).join ⟨[], labels.map Label.value, []⟩ := by
      simp [join]
    rw [List.map_cons, joined, single]
    by_cases taken : label.value ∈ m.exports
    · have refused : exportAll m (label :: labels) =
          .error ⟨.duplicateExport label.value, label.token.start⟩ := by
        rw [exportAll, addExport, if_pos taken]
        rfl
      have twice : ¬ (m.exports ++ [label.value]).Nodup := by
        rw [List.nodup_append_comm]
        exact fun distinct => (List.nodup_cons.1 distinct).1 taken
      rw [refused]
      constructor
      · intro read
        cases read
      · rintro ⟨whole, -⟩
        exact absurd (List.nodup_append.1 whole).1 twice
    · have added : exportAll m (label :: labels) =
          exportAll (m.join ⟨[], [label.value], []⟩) labels := by
        rw [exportAll, addExport, if_neg taken]
        simp [join, bind, Except.bind]
      have distinct' : (m.exports ++ [label.value]).Nodup := by
        rw [List.nodup_append_comm]
        exact List.nodup_cons.2 ⟨taken, distinct⟩
      rw [added]
      exact ih distinct'

/-- To drop names from a list and repetitions, it does not matter which are dropped first. -/
theorem eraseDups_filter (p : String → Bool) :
    (names : List String) → (names.filter p).eraseDups = names.eraseDups.filter p
  | [] => rfl
  | name :: names => by
    have ih := eraseDups_filter p (names.filter fun other => !other == name)
    rw [List.eraseDups_cons]
    by_cases kept : p name = true
    · rw [List.filter_cons_of_pos kept, List.filter_cons_of_pos kept, List.eraseDups_cons, ← ih,
        List.filter_comm]
    · have same : (names.filter fun other => !other == name).filter p = names.filter p := by
        rw [List.filter_filter]
        apply List.filter_congr
        intro other _
        by_cases equal : other = name <;> simp [equal, kept]
      rw [List.filter_cons_of_neg kept, List.filter_cons_of_neg kept, ← ih, same]
termination_by names => names.length
decreasing_by exact Nat.lt_succ_of_le (List.length_filter_le _ names)

theorem interface_cons (s : Statement) (ss : List Statement) :
    interface (s :: ss) = s.interface.join (interface ss) := by
  have once : s.requests.eraseDups = s.requests := by
    unfold Statement.requests
    cases s.specifier? <;> rfl
  have later (names : List String) : (names.removeAll s.requests).eraseDups =
      names.eraseDups.filter (· ∉ s.requests) := by
    unfold List.removeAll
    rw [eraseDups_filter]
    apply List.filter_congr
    intro name _
    simp
  unfold interface Statement.interface join
  rw [List.flatMap_cons, List.flatMap_cons, List.flatMap_cons, List.eraseDups_append, once, later]

/-- A statement is accepted if no name that it exports is exported already, nor exported twice by
itself. -/
theorem statements_statement_eq_ok {m m' : Interface} (distinct : m.exports.Nodup) (s : Statement)
    (rest : List Token) : statements stop m [] false (s.tokens ++ mark ";" :: rest) = .ok m' ↔
      (m.exports ++ s.exports).Nodup ∧
        statements stop (m.join s.interface) [] false rest = .ok m' := by
  have said : (m.join ⟨[], s.exports, []⟩).join ⟨s.requests, [], s.starExports⟩ =
      m.join s.interface := by
    simp [join, Statement.interface]
  rw [statements_statement, bind_eq_ok, ← said]
  constructor
  · rintro ⟨m₁, exported, read⟩
    obtain ⟨distinct', rfl⟩ := (exportAll_eq_ok distinct).1 exported
    exact ⟨distinct', read⟩
  · rintro ⟨distinct', read⟩
    exact ⟨_, (exportAll_eq_ok distinct).2 ⟨distinct', rfl⟩, read⟩

/-- From any interface without repeated exports, statements are accepted if no name is exported
twice, and add what they say. -/
theorem statements_render (ss : List Statement) {m m' : Interface} (distinct : m.exports.Nodup) :
    statements stop m [] false (render ss) = .ok m' ↔
      (m.exports ++ (interface ss).exports).Nodup ∧ m' = m.join (interface ss) := by
  induction ss generalizing m with
  | nil =>
    have same : m.join (interface []) = m := join_empty m
    have nothing : (interface []).exports = [] := rfl
    rw [same, nothing, List.append_nil]
    show statements stop m [] false [] = _ ↔ _
    rw [statements_nil]
    simp [distinct, eq_comm]
  | cons s ss ih =>
    have first : render (s :: ss) = s.tokens ++ mark ";" :: render ss := by
      simp [render]
    have names : m.exports ++ (s.interface.join (interface ss)).exports =
        (m.join s.interface).exports ++ (interface ss).exports :=
      (List.append_assoc _ _ _).symm
    rw [first, statements_statement_eq_ok distinct, interface_cons, names, ← join_assoc]
    constructor
    · rintro ⟨distinct', read⟩
      exact (ih distinct').1 read
    · rintro ⟨whole, rfl⟩
      have distinct' := (List.nodup_append.1 whole).1
      exact ⟨distinct', (ih distinct').2 ⟨whole, rfl⟩⟩

/-- Statements that stand one after the other make up a module exactly if no name is exported
twice, and the interface of the module is what they say. -/
theorem ofTokens_render (ss : List Statement) {ts : List Token} (alike : AllAlike (render ss) ts)
    (stop : Nat) (m : Interface) :
    ofTokens stop ts = .ok m ↔ (ss.flatMap Statement.exports).Nodup ∧
      m = ⟨(ss.flatMap Statement.requests).eraseDups, ss.flatMap Statement.exports,
        ss.flatMap Statement.starExports⟩ := by
  have plain : ofTokens stop (render ss) = .ok m ↔
      (empty.exports ++ (interface ss).exports).Nodup ∧ m = empty.join (interface ss) :=
    statements_render ss List.nodup_nil
  have back : AllAlike ts (render ss) := alike.flip.imp fun _ _ same => same.symm
  rw [empty_join] at plain
  exact ⟨fun read => plain.1 (ofTokens_alike back read),
    fun said => ofTokens_alike alike (plain.2 said)⟩

/-- Words with a meaning in declarations are names here, and code mentions both `import` and
`export`. -/
theorem ofTokens_render_contextual : ∃ ss ts,
    tokenize "import from from'm';export{as as as};export default import(0).export;" = .ok ts ∧
      AllAlike (render ss) ts ∧ ofTokens 69 ts = .ok ⟨["m"], ["as", "default"], []⟩ := by
  let name : Token := ⟨.identifier, 7, "from"⟩
  let specifier : Token := ⟨.string, 16, "'m'"⟩
  let label : Token := ⟨.identifier, 27, "as"⟩
  let renamed : Token := ⟨.identifier, 33, "as"⟩
  let inner : List Token := [⟨.number, 59, "0"⟩]
  let member : List Token := [⟨.punctuator, 61, "."⟩, ⟨.identifier, 62, "export"⟩]
  let code : List Token := [⟨.identifier, 52, "import"⟩, ⟨.punctuator, 58, "("⟩] ++ inner ++
    ⟨.punctuator, 60, ")"⟩ :: member
  let ts : List Token := [⟨.identifier, 0, "import"⟩, name, ⟨.identifier, 12, "from"⟩, specifier,
    ⟨.punctuator, 19, ";"⟩, ⟨.identifier, 20, "export"⟩, ⟨.punctuator, 26, "\x7b"⟩, label,
    ⟨.identifier, 30, "as"⟩, renamed, ⟨.punctuator, 35, "\x7d"⟩, ⟨.punctuator, 36, ";"⟩,
    ⟨.identifier, 37, "export"⟩, ⟨.identifier, 44, "default"⟩] ++ code ++ [⟨.punctuator, 68, ";"⟩]
  have scanned : tokenize "import from from'm';export{as as as};export default import(0).export;" =
      .ok ts :=
    eq_ok_of_toOption (by decide +kernel)
  have each : ∀ t ∈ ts, t.Scanned := Scanner.scanned_of_mem_tokens scanned
  have inside : Nested inner := .cons rfl .nil
  have silent : Silent false member := .cons rfl (fun _ => ⟨rfl, rfl⟩) (.cons rfl nofun .nil)
  have silent : Silent false code := .access rfl rfl (.bracket rfl rfl rfl inside silent)
  let ss : List Statement := [
    .importDefault ⟨name, rfl, each _ (by decide)⟩ ⟨specifier, rfl, each _ (by decide)⟩,
    .exportList [⟨.word ⟨label, rfl, each _ (by decide)⟩,
      some (.word ⟨renamed, rfl, each _ (by decide)⟩)⟩] none,
    .exportDefault ⟨code, silent⟩]
  have alike : AllAlike (render ss) ts := by
    repeat refine .cons ⟨rfl, rfl⟩ ?_
    exact .nil
  have exports : ss.flatMap Statement.exports = ["as", "default"] := rfl
  have requests : (ss.flatMap Statement.requests).eraseDups = ["m"] := by
    have value : specifier.stringValue = "m" := by decide
    exact congrArg (fun value => [value]) value
  have read := (ofTokens_render ss alike 69 ⟨["m"], ["as", "default"], []⟩).2
  rw [exports, requests] at read
  exact ⟨ss, ts, scanned, alike, read ⟨by decide, rfl⟩⟩

end Esm.Grammar
