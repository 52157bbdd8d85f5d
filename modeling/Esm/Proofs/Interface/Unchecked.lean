-- SUMMARY: The brackets of an accepted module nest exactly if those of its import lists and binding patterns do.
import Esm.Module
import Esm.Proofs.Interface.Taken
import Esm.Proofs.Token.Scanned
import Mathlib.Data.List.TakeWhile

/-!
# What reading leaves unchecked

Reading an interface refuses brackets that do not nest, but it does not look everywhere. The list of
an import is passed over up to the first closing brace, whatever other brackets it holds; and in the
pattern that an export binds brackets are counted, but any one may close any other. An accepted module
nests its brackets exactly if each such list and each such pattern nests its own.
-/

namespace Esm

namespace Interface

-- ---------------------------------------------------------------------------
-- Declarations and their unchecked parts
-- ---------------------------------------------------------------------------

/-- Tokens up to and with the first one that has a text. -/
def through (text : String) : List Token → List Token
  | [] => []
  | t :: ts => if t.text = text then [t] else t :: through text ts

/-- The part of a declaration in which brackets are not checked: the list of an import, from its
opening brace to the first closing one, and what an export binds by `const`, `let` or `var`. -/
def unchecked : List Token → List Token
  | [] => []
  | keyword :: ts =>
    if keyword.isWord "import" then through "\x7d" (ts.dropWhile (!·.isPunctuator "\x7b"))
    else if nextIs (fun t => t.isWord "const" || t.isWord "let" || t.isWord "var") ts then ts.tail
    else []

/-- The declarations of a module, each with the tokens from its keyword on as far as it is read.
Declarations are found as `statements` finds them. -/
def declarations (stop : Nat) (m : Interface) (opened : List Token) (afterDot : Bool) :
    List Token → List (List Token)
  | [] => []
  | t :: ts =>
    if t.kind = .punctuator then
      if (closerOf t.text).isSome then declarations stop m (t :: opened) false ts
      else if isCloser t.text then declarations stop m opened.tail false ts
      else declarations stop m opened (t.text = ".") ts
    else if t.isWord "import" && opened.isEmpty && !afterDot then
      match _ : importDeclaration stop t m ts with
      | .error _ => []
      | .ok (m, rest) =>
        (t :: ts.take (ts.length - rest.length)) :: declarations stop m [] false rest
    else if t.isWord "export" && opened.isEmpty && !afterDot then
      match _ : exportDeclaration stop t m ts with
      | .error _ => []
      | .ok (m, rest) =>
        (t :: ts.take (ts.length - rest.length)) :: declarations stop m [] false rest
    else declarations stop m opened (t.text = ".") ts
termination_by ts => ts.length
decreasing_by
  all_goals simp only [List.length_cons]
  all_goals first
    | exact Nat.lt_succ_self _
    | exact Nat.lt_succ_of_le (importDeclaration_length (by assumption))
    | exact Nat.lt_succ_of_le (exportDeclaration_length (by assumption))

variable {stop : Nat} {m m' : Interface} {keyword opener closer t : Token}
  {ts rest d inner : List Token}

-- ---------------------------------------------------------------------------
-- Parts that keep what is open
-- ---------------------------------------------------------------------------

/-- Where a brace is open, tokens up to the first closing brace close nothing outside it. `within`
are the brackets opened behind the brace. -/
theorem keeps_through (brace : opener.isPunctuator "\x7b" = true) (within ts : List Token) :
    Keeps (within ++ [opener]) (through "\x7d" ts) := by
  have onlyBrace : closerOf opener.text = some "\x7d" := by
    rw [(isPunctuator_eq brace).2]
    rfl
  induction ts generalizing within with
  | nil => exact keeps_plain plain_nil _
  | cons t ts ih =>
    unfold through
    by_cases delimiter : isDelimiter t = true
    · have kind : t.kind = .punctuator := by
        simp only [isDelimiter, Bool.and_eq_true, beq_iff_eq] at delimiter
        exact delimiter.1
      cases opens : (closerOf t.text).isSome with
      | true =>
        have other : t.text ≠ "\x7d" := by
          intro same
          rw [same] at opens
          exact absurd opens (by decide)
        rw [if_neg other]
        exact keeps_opener_cons kind opens (ih (t :: within))
      | false =>
        have closes : isCloser t.text = true := by
          simp only [isDelimiter, opens, Bool.false_or, Bool.and_eq_true] at delimiter
          exact delimiter.2
        split
        · -- the end of the list
          cases within with
          | nil => exact keeps_closer_cons kind opens closes _ fun _ => keeps_plain plain_nil _
          | cons a within =>
            exact keeps_closer_cons kind opens closes _ fun _ => keeps_plain plain_nil _
        · rename_i inside
          cases within with
          | nil =>
            refine keeps_closer_cons kind opens closes _ fun same => ?_
            rw [onlyBrace] at same
            exact absurd (Option.some.inj same).symm inside
          | cons a within => exact keeps_closer_cons kind opens closes _ fun _ => ih within
    · have plain : isDelimiter t = false := Bool.eq_false_iff.2 delimiter
      split
      · exact keeps_plain (Plain.cons plain plain_nil) _
      · exact keeps_plain_cons plain (ih within)

/-- Where as many brackets are open as it counts, a pattern closes no others. -/
theorem keeps_bindingPattern {depth : Nat} {inDefault : Bool} {opened : List Token}
    (call : bindingPattern stop m depth inDefault ts = .ok (m', rest)) (deep : opened ≠ [])
    (counted : opened.length = depth) : Takes (Keeps opened) ts rest := by
  induction ts generalizing m depth inDefault opened with
  | nil => cases call
  | cons t ts ih =>
    simp only [bindingPattern] at call
    split at call
    · rename_i kind
      split at call
      · -- one more bracket is open
        rename_i opens
        have opens : (closerOf t.text).isSome = true := by
          simp only [List.contains_cons, List.contains_nil, Bool.or_false, Bool.or_eq_true,
            beq_iff_eq] at opens
          obtain same | same | same := opens <;> rw [same] <;> rfl
        exact (ih call (List.cons_ne_nil t opened) (by simp [counted])).cons
          (keeps_opener_cons kind opens)
      · split at call
        · -- the innermost bracket is closed, whatever it is
          rename_i closes
          have shuts : (closerOf t.text).isSome = false ∧ isCloser t.text = true := by
            simp only [List.contains_cons, List.contains_nil, Bool.or_false, Bool.or_eq_true,
              beq_iff_eq] at closes
            obtain same | same | same := closes <;> rw [same] <;> decide
          cases opened with
          | nil => exact absurd rfl deep
          | cons opener opened =>
            split at call
            · rename_i last
              cases call
              have none : opened = [] := by
                rw [← List.length_eq_zero_iff]
                simp only [List.length_cons] at counted
                omega
              subst none
              exact ⟨[t], rfl, keeps_closer_cons kind shuts.1 shuts.2 opener fun _ =>
                keeps_plain plain_nil []⟩
            · rename_i more
              have deep' : opened ≠ [] := by
                rintro rfl
                simp only [List.length_cons, List.length_nil] at counted
                omega
              have inner := ih call deep' (by simp only [List.length_cons] at counted; omega)
              exact inner.cons fun keeps =>
                keeps_closer_cons kind shuts.1 shuts.2 opener fun _ => keeps
        · rename_i noOpener noCloser
          have plain : isDelimiter t = false := by
            simp only [List.contains_cons, List.contains_nil, Bool.or_false, Bool.or_eq_true,
              beq_iff_eq, not_or] at noOpener noCloser
            obtain ⟨brace, square, round⟩ := noOpener
            obtain ⟨brace', square', round'⟩ := noCloser
            simp [isDelimiter, closerOf, isCloser, brace, square, round, brace', square', round']
          split at call
          · exact (ih call deep counted).cons (keeps_plain_cons plain)
          · split at call
            · exact (ih call deep counted).cons (keeps_plain_cons plain)
            · exact (ih call deep counted).cons (keeps_plain_cons plain)
    · rename_i kind
      have plain : isDelimiter t = false := isDelimiter_of_kind kind (by decide)
      split at call
      · split at call
        · cases call
        · exact (ih call deep counted).cons (keeps_plain_cons plain)
      · exact (ih call deep counted).cons (keeps_plain_cons plain)
    · rename_i kind _
      have plain : isDelimiter t = false := isDelimiter_of_kind rfl kind
      exact (ih call deep counted).cons (keeps_plain_cons plain)

-- ---------------------------------------------------------------------------
-- Imports
-- ---------------------------------------------------------------------------

theorem through_append (inside : ∀ t ∈ inner, t.text ≠ "\x7d") (closing : closer.text = "\x7d")
    (after : List Token) : through "\x7d" (inner ++ closer :: after) = inner ++ [closer] := by
  induction inner with
  | nil => exact if_pos closing
  | cons t inner ih =>
    obtain ⟨first, others⟩ := List.forall_mem_cons.1 inside
    rw [List.cons_append, through, if_neg first, ih others]
    rfl

/-- The list of an import is the only part of it that has to be judged. -/
theorem Imported.judged (imported : Imported d) :
    Judged [] d [through "\x7d" (d.dropWhile (!·.isPunctuator "\x7b"))] := by
  have noBrace : ∀ {t : Token}, isDelimiter t = false → t.isPunctuator "\x7b" = false := by
    intro t plain
    cases h : t.isPunctuator "\x7b" with
    | false => rfl
    | true =>
      obtain ⟨kind, text⟩ := isPunctuator_eq h
      simp [isDelimiter, kind, text, closerOf] at plain
  induction imported with
  | @plain d plain =>
    have dropped : d.dropWhile (!·.isPunctuator "\x7b") = [] :=
      List.dropWhile_eq_nil_iff.2 fun t mem => by rw [noBrace (plain t mem)]; rfl
    rw [dropped]
    exact judged_nested plain.nested .nil
  | @list opener closer inner after brace inside closing plain =>
    obtain ⟨kind, text⟩ := isPunctuator_eq brace
    have opens : (closerOf opener.text).isSome = true := by rw [text]; rfl
    have other : opener.text ≠ "\x7d" := by rw [text]; decide
    have first : (opener :: (inner ++ closer :: after)).dropWhile (!·.isPunctuator "\x7b") =
        opener :: (inner ++ closer :: after) :=
      List.dropWhile_cons_of_neg (by simp [brace])
    have list : through "\x7d" (opener :: (inner ++ closer :: after)) =
        opener :: (inner ++ [closer]) := by
      rw [through, if_neg other, through_append inside closing]
    have keeps : Keeps [] (opener :: (inner ++ [closer])) := by
      rw [← through_append inside closing []]
      exact keeps_opener_cons kind opens (keeps_through brace [] _)
    rw [first, list]
    have whole : opener :: (inner ++ closer :: after) =
        [] ++ ((opener :: (inner ++ [closer])) ++ after) := by simp
    rw [whole]
    exact judged_around plain_nil plain keeps
  | @cons t d plain _ ih =>
    rw [List.dropWhile_cons_of_pos (by simp [noBrace plain])]
    exact ih.plain_cons plain

-- ---------------------------------------------------------------------------
-- Exports
-- ---------------------------------------------------------------------------

/-- What an export binds is the only part of it that has to be judged. -/
theorem takes_exportedBinding (call : exportedBinding stop keyword m ts = .ok (m', rest)) :
    Takes (fun d => Judged [] d [d]) ts rest := by
  cases ts with
  | nil => cases call
  | cons t ts =>
    simp only [exportedBinding] at call
    split at call
    · rename_i kind
      obtain ⟨m₁, added, call⟩ := bind_eq_ok.1 call
      cases call
      have plain : Plain [t] := .cons (isDelimiter_of_kind kind (by decide)) plain_nil
      exact ⟨[t], rfl, judged_nested plain.nested plain.nested⟩
    · split at call
      · rename_i opening
        have opener : t.kind = .punctuator ∧ (t.text = "\x7b" ∨ t.text = "[") := by
          obtain brace | square := Bool.or_eq_true_iff.1 opening
          · exact ⟨(isPunctuator_eq brace).1, Or.inl (isPunctuator_eq brace).2⟩
          · exact ⟨(isPunctuator_eq square).1, Or.inr (isPunctuator_eq square).2⟩
        obtain ⟨kind, text⟩ := opener
        have opens : (closerOf t.text).isSome = true := by obtain h | h := text <;> rw [h] <;> rfl
        have first : ["\x7b", "[", "("].contains t.text = true := by
          obtain h | h := text <;> rw [h] <;> rfl
        simp only [bindingPattern, kind, first, if_true] at call
        obtain ⟨d, rfl, keeps⟩ := keeps_bindingPattern call (List.cons_ne_nil t []) rfl
        exact ⟨t :: d, rfl, judged_part (keeps_opener_cons kind opens keeps) rfl⟩
      · cases call

/-- An export list nests its brackets, those around it included. -/
theorem takes_exportBraces {left : List Token} (brace : t.isPunctuator "\x7b" = true)
    (read : exportList stop m ts = .ok (m', left)) (clause : Takes Plain left rest)
    (spelled : Spelled ts) : Takes (fun d => Nested (t :: d)) ts rest := by
  obtain ⟨after, rfl, behind⟩ := clause
  obtain ⟨inner, closer, rfl, within, closing⟩ := takes_exportList read spelled
  obtain ⟨kind, text⟩ := isPunctuator_eq brace
  obtain ⟨kind', text'⟩ := isPunctuator_eq closing
  exact ⟨inner ++ closer :: after, by simp,
    .bracket kind kind' (by rw [text, text']; rfl) within.nested behind.nested⟩

theorem takes_exportDeclaration (export_ : keyword.isWord "export" = true)
    (call : exportDeclaration stop keyword m ts = .ok (m', rest)) (spelled : Spelled ts) :
    Takes (fun d => Judged [] (keyword :: d) [unchecked (keyword :: d)]) ts rest := by
  have plainKeyword : isDelimiter keyword = false := isDelimiter_of_isWord export_
  have noImport : keyword.isWord "import" = false := by
    simp [Token.isWord, (isWord_eq export_).2]
  have bound : ∀ d, unchecked (keyword :: d) =
      if nextIs (fun t => t.isWord "const" || t.isWord "let" || t.isWord "var") d then d.tail
      else [] := by
    intro d
    simp only [unchecked, noImport, Bool.false_eq_true, if_false]
  -- a declaration without brackets, whatever words it has
  have plain : Takes Plain ts rest →
      Takes (fun d => Judged [] (keyword :: d) [unchecked (keyword :: d)]) ts rest := by
    rintro ⟨d, rfl, plain⟩
    refine ⟨d, rfl, judged_nested (Plain.cons plainKeyword plain).nested ?_⟩
    rw [bound]
    split
    · exact Plain.nested fun t mem => plain t (List.mem_of_mem_tail mem)
    · exact .nil
  cases ts with
  | nil => cases call
  | cons t ts =>
    simp only [exportDeclaration] at call
    split at call
    · rename_i default_
      obtain ⟨m₁, added, call⟩ := bind_eq_ok.1 call
      cases call
      exact plain ⟨[t], rfl, .cons (isDelimiter_of_isWord default_) plain_nil⟩
    split at call
    · rename_i star
      exact plain ((takes_exportedStar call).cons
        (.cons (isDelimiter_of_isPunctuator star (by decide))))
    split at call
    · -- a list
      rename_i brace
      obtain ⟨⟨m₁, left⟩, read, call⟩ := bind_eq_ok.1 call
      have clause : Takes Plain left rest := by
        split at call
        · exact takes_fromClause call
        · cases call
          exact takes_nil plain_nil
      obtain ⟨d, rfl, nested⟩ :=
        takes_exportBraces brace read clause (Spelled.of_append (d := [t]) spelled)
      have noWord : ∀ word, t.isWord word = false := by
        intro word
        simp [Token.isWord, (isPunctuator_eq brace).1]
      refine ⟨t :: d, rfl, judged_nested (.cons plainKeyword nested) ?_⟩
      rw [bound]
      simp only [nextIs, List.head?_cons, Option.any_some, noWord, Bool.or_self, Bool.false_eq_true,
        if_false]
      exact .nil
    split at call
    · -- what is bound by a declaration of variables
      rename_i declarator
      have plainDeclarator : isDelimiter t = false := by
        simp only [Bool.or_eq_true] at declarator
        obtain (word | word) | word := declarator <;> exact isDelimiter_of_isWord word
      obtain ⟨d, rfl, judged⟩ := takes_exportedBinding call
      refine ⟨t :: d, rfl, ?_⟩
      dsimp only
      rw [bound]
      simp only [nextIs, List.head?_cons, Option.any_some, declarator, if_true, List.tail_cons]
      exact (judged.plain_cons plainDeclarator).plain_cons plainKeyword
    split at call
    · rename_i async
      obtain ⟨⟨function, left⟩, read, call⟩ := bind_eq_ok.1 call
      obtain ⟨whole, plainFunction⟩ := word_plain read
      rw [whole] at plain ⊢
      exact plain (((takes_exportedFunction call).cons (.cons plainFunction)).cons
        (.cons (isDelimiter_of_isWord async)))
    split at call
    · rename_i function
      exact plain ((takes_exportedFunction call).cons (.cons (isDelimiter_of_isWord function)))
    split at call
    · rename_i class_
      exact plain ((takes_exportedName call).cons (.cons (isDelimiter_of_isWord class_)))
    · cases call

-- ---------------------------------------------------------------------------
-- Modules
-- ---------------------------------------------------------------------------

theorem declarations_import (word : t.isWord "import" = true)
    (read : importDeclaration stop t m (d ++ rest) = .ok (m', rest)) :
    declarations stop m [] false (t :: (d ++ rest)) =
      (t :: d) :: declarations stop m' [] false rest := by
  have kind : t.kind ≠ .punctuator := by
    rw [(isWord_eq word).1]
    decide
  have taken : (d ++ rest).length - rest.length = d.length := by simp
  rw [declarations]
  simp only [kind, word, if_false, List.isEmpty_nil, Bool.not_false, Bool.and_true, if_true]
  split
  · rename_i read'
    rw [read] at read'
    cases read'
  · rename_i read'
    rw [read] at read'
    cases read'
    rw [taken, List.take_left]

theorem declarations_export (word : t.isWord "export" = true)
    (read : exportDeclaration stop t m (d ++ rest) = .ok (m', rest)) :
    declarations stop m [] false (t :: (d ++ rest)) =
      (t :: d) :: declarations stop m' [] false rest := by
  obtain ⟨kind, text⟩ := isWord_eq word
  have other : t.isWord "import" = false := by
    simp [Token.isWord, text]
  have kind : t.kind ≠ .punctuator := by
    rw [kind]
    decide
  have taken : (d ++ rest).length - rest.length = d.length := by simp
  rw [declarations]
  simp only [kind, other, word, if_false, List.isEmpty_nil, Bool.not_false, Bool.and_true,
    Bool.false_eq_true, if_true]
  split
  · rename_i read'
    rw [read] at read'
    cases read'
  · rename_i read'
    rw [read] at read'
    cases read'
    rw [taken, List.take_left]

/-- Tokens that are read to their end are judged by the unchecked parts of their declarations. -/
theorem statements_judged {opened : List Token} {afterDot : Bool}
    (call : statements stop m opened afterDot ts = .ok m') (spelled : Spelled ts) :
    Judged opened ts ((declarations stop m opened afterDot ts).map unchecked) := by
  fun_induction statements stop m opened afterDot ts with
  | case1 m afterDot =>
    rw [declarations]
    exact judged_nil
  | case2 | case5 | case6 | case8 | case10 => cases call
  | case3 m opened afterDot t ts kind opens ih =>
    rw [declarations]
    simp only [kind, opens, if_true]
    exact (ih call (Spelled.of_append (d := [t]) spelled)).cons fun before =>
      pass_opener kind opens (opened ++ before)
  | case4 m afterDot t ts kind opens closer opener opened closes ih =>
    rw [declarations]
    simp only [kind, opens, closer, if_true, List.tail_cons]
    exact (ih call (Spelled.of_append (d := [t]) spelled)).cons fun before =>
      pass_closes kind closes (opened ++ before)
  | case7 m opened afterDot t ts kind opens closer ih =>
    have plain : isDelimiter t = false := by
      simp [isDelimiter, kind, opens, closer]
    rw [declarations]
    simp only [kind, opens, closer, if_true]
    exact (ih call (Spelled.of_append (d := [t]) spelled)).plain_cons plain
  | case9 m opened afterDot t ts kind word m₁ left declaration ih =>
    simp only [Bool.and_eq_true, Bool.not_eq_true', List.isEmpty_iff] at word
    obtain ⟨⟨word, rfl⟩, rfl⟩ := word
    obtain ⟨d, rfl, imported⟩ := takes_importDeclaration declaration
    have plain : isDelimiter t = false := isDelimiter_of_isWord word
    have list : unchecked (t :: d) =
        through "\x7d" (d.dropWhile (!·.isPunctuator "\x7b")) := if_pos word
    rw [declarations_import word declaration, List.map_cons, list]
    exact (imported.judged.plain_cons plain).append
      (ih call (Spelled.of_append (d := t :: d) spelled))
  | case11 m opened afterDot t ts kind noImport word m₁ left declaration ih =>
    simp only [Bool.and_eq_true, Bool.not_eq_true', List.isEmpty_iff] at word
    obtain ⟨⟨word, rfl⟩, rfl⟩ := word
    obtain ⟨d, rfl, judged⟩ :=
      takes_exportDeclaration word declaration (Spelled.of_append (d := [t]) spelled)
    rw [declarations_export word declaration]
    exact judged.append (ih call (Spelled.of_append (d := t :: d) spelled))
  | case12 m opened afterDot t ts kind noImport noExport ih =>
    have plain : isDelimiter t = false := by
      simp [isDelimiter, kind]
    rw [declarations]
    simp only [kind, noImport, noExport, if_false]
    exact (ih call (Spelled.of_append (d := [t]) spelled)).plain_cons plain

end Interface

/-- The brackets of a module that compiles nest, those in all its tokens and each closed by its
counterpart, exactly if they nest in the list of each import and in what each export of variables
binds. Everything else is checked on the way. -/
theorem Module.nested_iff_unchecked {source name : String} {m : Module} {ts : List Token}
    (accepted : Module.compile source name = .ok m) (scanned : tokenize source = .ok ts) :
    Interface.Nested ts ↔
      ∀ d ∈ Interface.declarations source.utf8ByteSize .empty [] false ts,
        Interface.Nested (Interface.unchecked d) := by
  obtain ⟨ts', interface, scanned', read, -⟩ := Module.compile_eq_ok.1 accepted
  have same : ts' = ts := Except.ok.inj (scanned'.symm.trans scanned)
  subst same
  have spelled : Interface.Spelled ts' := fun t mem text =>
    (Scanner.scanned_of_mem_tokens scanned' t mem).punctuator (by decide) (by decide) text
  have judged := (Interface.statements_judged read spelled).nested
  rwa [List.forall_mem_map] at judged

/-- A list of names that opens a bracket and does not close it: the module compiles. -/
theorem Module.nested_iff_unchecked_open_list : ∃ m ts,
    Module.compile "import \x7b ( \x7d from 'x';" "m" = .ok m ∧
      tokenize "import \x7b ( \x7d from 'x';" = .ok ts ∧ ¬ Interface.Nested ts := by
  have accepted : Module.compile "import \x7b ( \x7d from 'x';" "m" = .ok ⟨"m", ⟨["x"], [], []⟩,
      ⟨["import", "\x7b", "(", "\x7d", "from", "'x'", ";"],
        [⟨.identifier, 0⟩, ⟨.punctuator, 1⟩, ⟨.punctuator, 2⟩, ⟨.punctuator, 3⟩, ⟨.identifier, 4⟩,
          ⟨.string, 5⟩, ⟨.punctuator, 6⟩]⟩⟩ :=
    Interface.eq_ok_of_toOption (by decide +kernel)
  have scanned : tokenize "import \x7b ( \x7d from 'x';" = .ok [⟨.identifier, 0, "import"⟩,
      ⟨.punctuator, 7, "\x7b"⟩, ⟨.punctuator, 9, "("⟩, ⟨.punctuator, 11, "\x7d"⟩,
      ⟨.identifier, 13, "from"⟩, ⟨.string, 18, "'x'"⟩, ⟨.punctuator, 21, ";"⟩] :=
    Interface.eq_ok_of_toOption (by decide +kernel)
  refine ⟨_, _, accepted, scanned, fun nested => ?_⟩
  -- the list of the import would have to nest by itself
  have list := (Module.nested_iff_unchecked accepted scanned).1 nested
    [⟨.identifier, 0, "import"⟩, ⟨.punctuator, 7, "\x7b"⟩, ⟨.punctuator, 9, "("⟩,
      ⟨.punctuator, 11, "\x7d"⟩, ⟨.identifier, 13, "from"⟩, ⟨.string, 18, "'x'"⟩]
    (by decide +kernel)
  exact absurd (Interface.nested_iff.1 list) (by decide)

end Esm
