-- SUMMARY: Reading declarations by index and byte offset settles, as reading their tokens does.
import Esm.Proofs.Offsets.Declarations

/-!
# Reading by index and offset settles

The tokens of a source stand in it, each with the shape of its kind. That is all it takes for the
readers by index to stay in range: a string has its two quotes, a pattern is read from a bracket that
opens it, and where a declaration looks back it has taken a token. There is one lemma for each
reader. Main statements: `settles_importDeclaration`, `settles_exportDeclaration`.
-/

namespace Esm.Offsets

open Text Attempt

/-- The tokens of a source, each of which stands in it and has the shape of its kind. -/
structure Cut (source : List Char) (all : List Token) : Prop where
  lies : ∀ t ∈ all, Lies source t
  shape : ∀ t ∈ all, Lexeme.Shape t.kind t.text.toList

/-- `t` is the token before an index. -/
def Before (all : List Token) (t : Token) (pos : Nat) : Prop :=
  ∃ index, pos = index + 1 ∧ all[index]? = some t

/-- A reading by index has come to the value and the place that a reading of tokens has come to. -/
structure Agrees {α : Type} (all : List Token) (a : α × Nat) (b : α × List Token) : Prop where
  value : a.1 = b.1
  rest : all.drop a.2 = b.2

/-- Both have taken the same token. -/
structure Takes (all : List Token) (a : Token × Nat) (b : Token × List Token) : Prop
    extends Agrees all a b where
  before : Before all a.1 a.2

/-- Both have read as far as a token that is not a dot. -/
structure Ends {α : Type} (all : List Token) (a : α × Nat) (b : α × List Token) : Prop
    extends Agrees all a b where
  plain : ∃ t, Before all t a.2 ∧ t.text ≠ "."

section

variable {source : String} {all ts : List Token} {t : Token} {fuel pos : Nat} {m : Interface}

theorem Before.mem (before : Before all t pos) : t ∈ all := by
  obtain ⟨index, -, found⟩ := before
  exact List.mem_of_getElem? found

theorem rest_cons (here : all.drop pos = t :: ts) :
    all.drop (pos + 1) = ts ∧ Before all t (pos + 1) := by
  have found : all[pos]? = some t := by
    rw [← List.head?_drop, here]
    rfl
  refine ⟨?_, pos, rfl, found⟩
  rw [← List.tail_drop, here]
  rfl

theorem rest_tail (here : all.drop pos = ts) : all.drop (pos + 1) = ts.tail := by
  rw [← List.tail_drop, here]

/-- Only punctuation is spelled like a dot. -/
theorem text_ne_dot (shape : Lexeme.Shape t.kind t.text.toList) (other : t.kind ≠ .punctuator) :
    t.text ≠ "." := by
  intro dot
  have text : t.text.toList = ['.'] := congrArg String.toList dot
  generalize t.kind = kind at shape other
  generalize t.text.toList = cs at shape text
  cases shape with
  | word start =>
    cases text
    exact absurd start (by decide)
  | number digit =>
    cases text
    exact absurd digit (by decide)
  | punctuator => exact other rfl
  | privateName | string | template | fraction | regExp => simp at text

/-- A string is cut between its quotes. -/
theorem stringValue?_eq (shape : Lexeme.Shape t.kind t.text.toList) (kind : t.kind = .string) :
    stringValue? t = some t.stringValue := by
  rw [kind] at shape
  unfold stringValue? Token.stringValue
  generalize t.text.toList = text at shape
  cases shape with
  | @string quote body isQuote _ =>
    have size : quote.utf8Size = 1 := by
      obtain rfl | rfl := isQuote <;> rfl
    have last : down? (byteLength (quote :: (body ++ [quote]))) =
        some (byteLength (quote :: body)) := by
      have whole : byteLength (quote :: (body ++ [quote])) = byteLength (quote :: body) + 1 := by
        simp [size]
        omega
      rw [whole]
      rfl
    have inside : slice? (quote :: (body ++ [quote])) 1 (byteLength (quote :: body)) = some body :=
      slice?_eq_some_iff.2 ⟨[quote], [quote], rfl, by simp [size], rfl⟩
    rw [last]
    show (slice? _ 1 _ >>= _) = _
    rw [inside]
    simp

-- ---------------------------------------------------------------------------
-- Single tokens
-- ---------------------------------------------------------------------------

namespace Cut

variable (cut : Cut source.toList all)

include cut

theorem peek_eq (here : all.drop pos = ts) :
    peek source.toList (all.map spanOf) pos = pure ts.head? := by
  have found : (all.map spanOf)[pos]? = ts.head?.map spanOf := by
    rw [List.getElem?_map, ← List.head?_drop, here]
  unfold peek
  rw [found]
  cases ts with
  | nil => rfl
  | cons t ts =>
    have lies := cut.lies t (rest_cons here).2.mem
    show (look (token? _ (spanOf t)) >>= _) = _
    rw [lies.token?]
    rfl

theorem nextIs_eq (here : all.drop pos = ts) (test : Token → Bool) :
    nextIs source.toList (all.map spanOf) test pos = pure (Interface.nextIs test ts) := by
  unfold nextIs
  rw [cut.peek_eq here]
  rfl

/-- Behind a token there is one to look back at. -/
theorem previous_eq (before : Before all t pos) :
    previous source.toList (all.map spanOf) pos = pure t := by
  have mem := before.mem
  obtain ⟨index, rfl, found⟩ := before
  have found : (all.map spanOf)[index]? = some (spanOf t) := by
    rw [List.getElem?_map, found]
    rfl
  unfold previous
  show (look (all.map spanOf)[index]? >>= fun span => look (token? source.toList span)) = _
  rw [found]
  show look (token? _ (spanOf t)) = _
  rw [(cut.lies t mem).token?]
  rfl

theorem afterDot_eq (before : Before all t pos) :
    afterDot source.toList (all.map spanOf) pos = pure (decide (t.text = ".")) := by
  have looked := cut.previous_eq before
  obtain ⟨index, rfl, -⟩ := before
  unfold afterDot
  rw [if_neg (Nat.succ_ne_zero index), looked]
  rfl

theorem boundary (before : Before all t pos) : IsBoundary source.toList t.start :=
  (cut.lies t before.mem).boundary

theorem afterDot_false (before : Before all t pos) (plain : t.text ≠ ".") :
    afterDot source.toList (all.map spanOf) pos = pure false :=
  (cut.afterDot_eq before).trans (congrArg pure (decide_eq_false plain))

theorem text_ne_dot (before : Before all t pos) (other : t.kind ≠ .punctuator) : t.text ≠ "." :=
  Offsets.text_ne_dot (cut.shape t before.mem) other

theorem settles_bindingName (before : Before all t pos) :
    Settles source .declaration (fun name name' => name = name' ∧ t.text ≠ ".")
      (bindingName source.toList t) (Interface.bindingName t) := by
  have shape := cut.shape t before.mem
  unfold bindingName Interface.bindingName
  cases kind : t.kind with
  | identifier => exact .pure ⟨rfl, cut.text_ne_dot before (kind ▸ by decide)⟩
  | string =>
    simp only
    rw [stringValue?_eq shape kind]
    exact .pure ⟨rfl, cut.text_ne_dot before (kind ▸ by decide)⟩
  | template | number | regExp | punctuator | endOfInput => exact .refuse (cut.boundary before) _

theorem settles_addExport (before : Before all t pos) (m : Interface) (name : String) :
    Settles source .declaration Eq (addExport source.toList m t name) (m.addExport t name) := by
  unfold addExport Interface.addExport
  split
  · exact .refuse (cut.boundary before) _
  · exact .pure rfl

theorem take_nil (here : all.drop pos = []) :
    take source.toList (all.map spanOf) pos =
      refuse source.toList (.declaration .endOfInput) (byteLength source.toList) := by
  unfold take
  rw [cut.peek_eq here]
  rfl

theorem take_cons (here : all.drop pos = t :: ts) :
    take source.toList (all.map spanOf) pos = pure (t, pos + 1) := by
  unfold take
  rw [cut.peek_eq here]
  rfl

theorem settles_take (here : all.drop pos = ts) :
    Settles source .declaration (Takes all) (take source.toList (all.map spanOf) pos)
      (Interface.anyToken (byteLength source.toList) ts) := by
  cases ts with
  | nil =>
    rw [cut.take_nil here]
    exact .refuse (isBoundary_end _) _
  | cons t ts =>
    obtain ⟨rest, before⟩ := rest_cons here
    rw [cut.take_cons here]
    exact .pure ⟨⟨rfl, rest⟩, before⟩

theorem settles_takeOf (here : all.drop pos = ts) (kind : TokenKind) :
    Settles source .declaration (fun a b => Takes all a b ∧ a.1.kind = kind)
      (takeOf source.toList (all.map spanOf) kind pos)
      (Interface.tokenOf (byteLength source.toList) kind ts) := by
  unfold takeOf
  cases ts with
  | nil =>
    rw [cut.take_nil here]
    exact .refuse_bind (isBoundary_end _) _ _
  | cons t ts =>
    obtain ⟨rest, before⟩ := rest_cons here
    rw [cut.take_cons here]
    simp only [pure_bind, Interface.tokenOf]
    split
    · rename_i same
      exact .pure ⟨⟨⟨rfl, rest⟩, before⟩, same⟩
    · exact .refuse (cut.boundary before) _

theorem settles_takeWord (here : all.drop pos = ts) (word : String) :
    Settles source .declaration (Takes all) (takeWord source.toList (all.map spanOf) word pos)
      (Interface.word (byteLength source.toList) word ts) := by
  unfold takeWord
  cases ts with
  | nil =>
    rw [cut.take_nil here]
    exact .refuse_bind (isBoundary_end _) _ _
  | cons t ts =>
    obtain ⟨rest, before⟩ := rest_cons here
    rw [cut.take_cons here]
    simp only [pure_bind, Interface.word]
    split
    · exact .pure ⟨⟨rfl, rest⟩, before⟩
    · exact .refuse (cut.boundary before) _

/-- Where the tokens go on or end, there is a place for a fault. -/
theorem boundary_next (here : all.drop pos = ts) {keyword : Token} (mem : keyword ∈ all) :
    IsBoundary source.toList (ts.head?.getD keyword).start := by
  cases ts with
  | nil => exact (cut.lies keyword mem).boundary
  | cons t ts => exact cut.boundary (rest_cons here).2

theorem settles_fromClause (here : all.drop pos = ts) {keyword : Token} (mem : keyword ∈ all)
    (add : String → Interface) :
    Settles source .declaration (Ends all)
      (fromClause source.toList (all.map spanOf) keyword add pos)
      (Interface.fromClause (byteLength source.toList) keyword add ts) := by
  unfold fromClause Interface.fromClause
  rw [cut.nextIs_eq here]
  simp only [pure_bind]
  split
  · apply Settles.bind (cut.settles_takeOf (rest_tail here) .string)
    rintro ⟨t, pos⟩ ⟨_, ts⟩ ⟨⟨⟨rfl, rest⟩, before⟩, kind⟩
    refine .look (stringValue?_eq (cut.shape t before.mem) kind) (.pure ⟨⟨rfl, rest⟩, t, before, ?_⟩)
    exact cut.text_ne_dot before (kind ▸ by decide)
  · rw [cut.peek_eq here]
    exact .refuse (cut.boundary_next here mem) _

-- ---------------------------------------------------------------------------
-- Imports
-- ---------------------------------------------------------------------------

theorem settles_skipImportList {opener : Token} (mem : opener ∈ all) (here : all.drop pos = ts)
    (enough : ts.length < fuel) :
    Settles source .declaration (fun pos rest => all.drop pos = rest)
      (skipImportList source.toList (all.map spanOf) opener fuel pos)
      (Interface.skipImportList opener ts) := by
  induction fuel generalizing ts pos with
  | zero => exact absurd enough (Nat.not_lt_zero _)
  | succ fuel ih =>
  rw [skipImportList]
  cases ts with
  | nil =>
    rw [cut.take_nil here, tryCatch_refuse (isBoundary_end _)]
    exact .refuse_bind (cut.lies opener mem).boundary _ _
  | cons t ts =>
    obtain ⟨rest, before⟩ := rest_cons here
    rw [cut.take_cons here]
    show Settles source _ _ (if _ then _ else _) (if _ then _ else _)
    split
    · exact .pure rest
    · exact ih rest (Nat.lt_of_succ_lt_succ enough)

theorem settles_importBindings {keyword : Token} (mem : keyword ∈ all) (here : all.drop pos = ts)
    (enough : ts.length < fuel) :
    Settles source .declaration (Ends all)
      (importBindings source.toList (all.map spanOf) fuel keyword m pos)
      (Interface.importBindings (byteLength source.toList) keyword m ts) := by
  unfold importBindings
  rw [cut.nextIs_eq here]
  cases ts with
  | nil =>
    rw [cut.nextIs_eq here, cut.peek_eq here]
    exact .refuse (cut.lies keyword mem).boundary _
  | cons t ts =>
    obtain ⟨rest, before⟩ := rest_cons here
    simp only [pure_bind, Interface.importBindings]
    show Settles source _ _ (if t.isPunctuator "*" then _ else _) _
    split
    · -- a namespace
      apply Settles.bind (cut.settles_takeWord rest "as")
      rintro ⟨_, pos⟩ ⟨_, ts⟩ ⟨⟨-, rest⟩, -⟩
      apply Settles.bind (cut.settles_takeOf rest .identifier)
      rintro ⟨_, pos⟩ ⟨_, ts⟩ ⟨⟨⟨-, rest⟩, -⟩, -⟩
      exact cut.settles_fromClause rest mem m.addRequest
    rw [cut.nextIs_eq here]
    simp only [pure_bind]
    show Settles source _ _ (if t.isPunctuator "\x7b" then _ else _) _
    split
    · -- a list
      rw [cut.take_cons here]
      apply Settles.bind (cut.settles_skipImportList before.mem rest (Nat.lt_of_succ_lt enough))
      intro pos ts rest
      exact cut.settles_fromClause rest mem m.addRequest
    · rw [cut.peek_eq here]
      exact .refuse (cut.boundary before) _

theorem settles_importDeclaration {keyword : Token} (kind : keyword.kind = .identifier)
    (here : all.drop pos = keyword :: ts) (enough : ts.length < fuel) :
    Settles source .declaration (Ends all)
      (importDeclaration source.toList (all.map spanOf) fuel m pos)
      (Interface.importDeclaration (byteLength source.toList) keyword m ts) := by
  obtain ⟨rest, before⟩ := rest_cons here
  have plain : keyword.text ≠ "." := cut.text_ne_dot before (kind ▸ by decide)
  unfold importDeclaration
  rw [cut.take_cons here]
  simp only [pure_bind]
  rw [cut.peek_eq rest]
  cases ts with
  | nil => exact .refuse (cut.boundary before) _
  | cons t ts =>
    obtain ⟨rest', before'⟩ := rest_cons rest
    simp only [pure_bind, List.head?_cons, Interface.importDeclaration]
    split
    · -- an expression
      exact .pure ⟨⟨rfl, rest⟩, keyword, before, plain⟩
    cases kind : t.kind with
    | string =>
      simp only [if_true]
      exact .look (stringValue?_eq (cut.shape t before'.mem) kind)
        (.pure ⟨⟨rfl, rest'⟩, t, before', cut.text_ne_dot before' (kind ▸ by decide)⟩)
    | identifier =>
      simp only [reduceCtorEq, if_false, if_true]
      rw [cut.take_cons rest]
      simp only [pure_bind]
      rw [cut.nextIs_eq rest', cut.nextIs_eq rest']
      simp only [pure_bind]
      split
      · exact .refuse (cut.boundary before') _
      split
      · refine cut.settles_importBindings before.mem (rest_tail rest') ?_
        rw [List.length_tail]
        simp only [List.length_cons] at enough
        omega
      · exact cut.settles_fromClause rest' before.mem m.addRequest
    | template | number | regExp | punctuator | endOfInput =>
      exact cut.settles_importBindings before.mem rest enough

-- ---------------------------------------------------------------------------
-- Exports
-- ---------------------------------------------------------------------------

theorem settles_exportItem (before : Before all t pos) (here : all.drop pos = ts) :
    Settles source .declaration (Agrees all)
      (exportItem source.toList (all.map spanOf) m t pos)
      (Interface.exportItem (byteLength source.toList) m t ts) := by
  unfold exportItem Interface.exportItem
  apply Settles.bind (cut.settles_bindingName before)
  rintro name _ ⟨rfl, -⟩
  rw [cut.nextIs_eq here]
  simp only [pure_bind]
  split
  · apply Settles.bind (cut.settles_take (rest_tail here))
    rintro ⟨t', pos⟩ ⟨_, ts⟩ ⟨⟨rfl, rest⟩, before'⟩
    apply Settles.bind (cut.settles_bindingName before')
    rintro name _ ⟨rfl, -⟩
    apply Settles.bind (cut.settles_addExport before' m name)
    rintro m _ rfl
    exact .pure ⟨rfl, rest⟩
  · apply Settles.bind (cut.settles_addExport before m name)
    rintro m _ rfl
    exact .pure ⟨rfl, here⟩

theorem settles_exportList (here : all.drop pos = ts) (enough : ts.length < fuel) :
    Settles source .declaration (Ends all)
      (exportList source.toList (all.map spanOf) fuel m pos)
      (Interface.exportList (byteLength source.toList) m ts) := by
  induction fuel generalizing ts pos m with
  | zero => exact absurd enough (Nat.not_lt_zero _)
  | succ fuel ih =>
    rw [exportList]
    cases ts with
    | nil =>
      rw [cut.take_nil here, Interface.exportList]
      exact .refuse_bind (isBoundary_end _) _ _
    | cons t ts =>
      obtain ⟨rest, before⟩ := rest_cons here
      rw [cut.take_cons here, Interface.exportList_cons]
      simp only [pure_bind]
      split
      · rename_i brace
        exact .pure ⟨⟨rfl, rest⟩, t, before, by rw [brace]; decide⟩
      apply Settles.bind_ok (cut.settles_exportItem before rest)
      rintro ⟨m, pos⟩ ⟨_, ts'⟩ item ⟨rfl, rest⟩
      have shorter := Interface.exportItem_length item
      simp only
      cases ts' with
      | nil =>
        rw [cut.take_nil rest]
        exact .refuse_bind (isBoundary_end _) _ _
      | cons separator ts' =>
        obtain ⟨rest', before'⟩ := rest_cons rest
        rw [cut.take_cons rest]
        simp only [pure_bind, Interface.exportSeparator]
        by_cases comma : separator.text = ","
        · rw [if_pos comma, if_pos comma]
          simp only [List.length_cons] at enough shorter
          have enough : ts'.length < fuel := by omega
          exact ih rest' enough
        rw [if_neg comma, if_neg comma]
        split
        · rename_i brace
          exact .pure ⟨⟨rfl, rest'⟩, separator, before', by rw [brace]; decide⟩
        · exact .refuse (cut.boundary before') _

/-- A pattern is read from a bracket that opens it, so that at each closing bracket one is open. -/
theorem settles_bindingPattern {depth : Nat} {inDefault : Bool} (here : all.drop pos = ts)
    (enough : ts.length < fuel)
    (inside : depth = 0 → ∃ t ∈ ts.head?, ["\x7b", "[", "("].contains t.text = true ∧
      t.kind = .punctuator) :
    Settles source .declaration (Ends all)
      (bindingPattern source.toList (all.map spanOf) fuel m depth inDefault pos)
      (Interface.bindingPattern (byteLength source.toList) m depth inDefault ts) := by
  induction fuel generalizing ts m depth inDefault pos with
  | zero => exact absurd enough (Nat.not_lt_zero _)
  | succ fuel ih =>
  rw [bindingPattern]
  cases ts with
  | nil =>
    rw [cut.take_nil here]
    exact .refuse_bind (isBoundary_end _) _ _
  | cons t ts =>
    obtain ⟨rest, before⟩ := rest_cons here
    rw [cut.take_cons here]
    simp only [pure_bind, Interface.bindingPattern]
    have deeper : ∀ {m : Interface} {n : Nat} {inDefault : Bool}, n ≠ 0 →
        Settles source .declaration (Ends all)
          (bindingPattern source.toList (all.map spanOf) fuel m n inDefault (pos + 1))
          (Interface.bindingPattern (byteLength source.toList) m n inDefault ts) :=
      fun positive => ih rest (Nat.lt_of_succ_lt_succ enough) fun none => absurd none positive
    have positive : ["\x7b", "[", "("].contains t.text = false ∨ t.kind ≠ .punctuator → depth ≠ 0 := by
      intro other none
      obtain ⟨_, first, opener, kind⟩ := inside none
      cases first
      obtain other | other := other
      · rw [other] at opener
        cases opener
      · exact other kind
    cases kind : t.kind with
    | punctuator =>
      simp only
      split
      · exact deeper (Nat.succ_ne_zero depth)
      rename_i other
      have positive := positive (Or.inl (Bool.not_eq_true _ ▸ other))
      split
      · -- a closing bracket
        rename_i closer
        obtain ⟨n, rfl⟩ := Nat.exists_eq_succ_of_ne_zero positive
        refine .look (c := n) rfl ?_
        by_cases last : n = 0
        · subst last
          refine .pure ⟨⟨rfl, rest⟩, t, before, ?_⟩
          intro dot
          rw [dot] at closer
          exact absurd closer (by decide)
        · have more : ¬ n.succ ≤ 1 := by omega
          rw [if_neg last, if_neg more]
          exact deeper last
      split
      · exact deeper positive
      split
      · exact deeper positive
      · exact deeper positive
    | identifier =>
      have positive := positive (Or.inr (by rw [kind]; decide))
      simp only
      rw [cut.nextIs_eq rest]
      simp only [pure_bind]
      split
      · have settles := cut.settles_addExport before m t.text
        cases added : m.addExport t t.text with
        | error failure =>
          rw [added] at settles
          exact settles.error_bind
        | ok m' =>
          rw [added] at settles
          obtain ⟨_, exported, rfl⟩ := settles.ok
          rw [exported]
          exact deeper positive
      · exact deeper positive
    | template | number | regExp | string | endOfInput =>
      exact deeper (positive (Or.inr (by rw [kind]; decide)))

theorem settles_exportedName (here : all.drop pos = ts) :
    Settles source .declaration (Ends all)
      (exportedName source.toList (all.map spanOf) m pos)
      (Interface.exportedName (byteLength source.toList) m ts) := by
  unfold exportedName Interface.exportedName
  apply Settles.bind (cut.settles_takeOf here .identifier)
  rintro ⟨t, pos⟩ ⟨_, ts⟩ ⟨⟨⟨rfl, rest⟩, before⟩, kind⟩
  have plain : t.text ≠ "." := cut.text_ne_dot before (kind ▸ by decide)
  apply Settles.bind (cut.settles_addExport before m t.text)
  rintro m _ rfl
  exact .pure ⟨⟨rfl, rest⟩, t, before, plain⟩

theorem settles_exportedFunction (here : all.drop pos = ts) :
    Settles source .declaration (Ends all)
      (exportedFunction source.toList (all.map spanOf) m pos)
      (Interface.exportedFunction (byteLength source.toList) m ts) := by
  unfold exportedFunction Interface.exportedFunction
  rw [cut.nextIs_eq here]
  simp only [pure_bind]
  split
  · exact cut.settles_exportedName (rest_tail here)
  · exact cut.settles_exportedName here

theorem settles_exportedBinding {keyword : Token} (before : Before all keyword pos)
    (here : all.drop pos = ts) (enough : ts.length < fuel) :
    Settles source .declaration (Ends all)
      (exportedBinding source.toList (all.map spanOf) fuel m pos)
      (Interface.exportedBinding (byteLength source.toList) keyword m ts) := by
  unfold exportedBinding
  rw [cut.peek_eq here]
  cases ts with
  | nil =>
    simp only [pure_bind, List.head?_nil, cut.previous_eq before]
    exact .refuse (cut.boundary before) _
  | cons t ts =>
    obtain ⟨rest, before'⟩ := rest_cons here
    simp only [pure_bind, List.head?_cons, Interface.exportedBinding]
    split
    · rename_i kind
      have plain : t.text ≠ "." := cut.text_ne_dot before' (kind ▸ by decide)
      apply Settles.bind (cut.settles_addExport before' m t.text)
      rintro m _ rfl
      exact .pure ⟨⟨rfl, rest⟩, t, before', plain⟩
    split
    · rename_i bracket
      refine cut.settles_bindingPattern here enough fun _ => ⟨t, rfl, ?_⟩
      simp only [Token.isPunctuator, Bool.or_eq_true, Bool.and_eq_true, beq_iff_eq] at bracket
      obtain ⟨kind, text⟩ | ⟨kind, text⟩ := bracket
      · exact ⟨by rw [text]; decide, kind⟩
      · exact ⟨by rw [text]; decide, kind⟩
    · exact .refuse (cut.boundary before') _

theorem settles_exportedStar {keyword : Token} (mem : keyword ∈ all) (here : all.drop pos = ts) :
    Settles source .declaration (Ends all)
      (exportedStar source.toList (all.map spanOf) keyword m pos)
      (Interface.exportedStar (byteLength source.toList) keyword m ts) := by
  unfold exportedStar Interface.exportedStar
  rw [cut.nextIs_eq here]
  simp only [pure_bind]
  split
  · apply Settles.bind (cut.settles_take (rest_tail here))
    rintro ⟨t, pos⟩ ⟨_, ts⟩ ⟨⟨rfl, rest⟩, before⟩
    apply Settles.bind (cut.settles_bindingName before)
    rintro name _ ⟨rfl, -⟩
    apply Settles.bind (cut.settles_addExport before m name)
    rintro m _ rfl
    exact cut.settles_fromClause rest mem m.addRequest
  · exact cut.settles_fromClause here mem m.addStar

theorem settles_exportDeclaration {keyword : Token} (here : all.drop pos = keyword :: ts)
    (enough : ts.length < fuel) :
    Settles source .declaration (Ends all)
      (exportDeclaration source.toList (all.map spanOf) fuel m pos)
      (Interface.exportDeclaration (byteLength source.toList) keyword m ts) := by
  obtain ⟨rest, before⟩ := rest_cons here
  unfold exportDeclaration
  rw [cut.take_cons here]
  simp only [pure_bind]
  cases ts with
  | nil =>
    rw [cut.take_nil rest, tryCatch_refuse (isBoundary_end _)]
    exact .refuse_bind (cut.boundary before) _ _
  | cons t ts =>
    obtain ⟨rest', before'⟩ := rest_cons rest
    have enough : ts.length < fuel := Nat.lt_of_succ_lt enough
    rw [cut.take_cons rest]
    show Settles source _ _ (if t.isWord "default" then _ else _) _
    simp only [Interface.exportDeclaration]
    split
    · rename_i word
      have plain : t.text ≠ "." := by
        rw [(Interface.isWord_eq word).2]
        decide
      apply Settles.bind (cut.settles_addExport before' m "default")
      rintro m _ rfl
      exact .pure ⟨⟨rfl, rest'⟩, t, before', plain⟩
    split
    · exact cut.settles_exportedStar before.mem rest'
    split
    · apply Settles.bind (cut.settles_exportList rest' enough)
      rintro ⟨m, pos⟩ ⟨_, ts⟩ ⟨⟨rfl, rest⟩, plain⟩
      simp only
      rw [cut.nextIs_eq rest]
      simp only [pure_bind]
      split
      · exact cut.settles_fromClause rest before.mem m.addRequest
      · exact .pure ⟨⟨rfl, rest⟩, plain⟩
    split
    · exact cut.settles_exportedBinding before' rest' enough
    split
    · apply Settles.bind (cut.settles_takeWord rest' "function")
      rintro ⟨_, pos⟩ ⟨_, ts⟩ ⟨⟨-, rest⟩, -⟩
      exact cut.settles_exportedFunction rest
    split
    · exact cut.settles_exportedFunction rest'
    split
    · exact cut.settles_exportedName rest'
    · exact .refuse (cut.boundary before') _

end Cut

end

end Esm.Offsets
