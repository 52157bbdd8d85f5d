-- SUMMARY: The specifiers that a module declares, said by a grammar of its declarations.
import Esm.Proofs.Interface.Names

/-!
# Declared specifiers

Import and export declarations name other modules by strings. A grammar says which strings these are,
apart from what reads them: each judgement is about the head of a list of tokens, the specifiers that
are declared there, in their order, and the tokens behind. Which specifiers a module declares is
determined by its tokens. Main statement: `Declares.unique`.
-/

namespace Esm.Interface.Declared

/-- A string that names a module, and whether the exports of that module are passed on. -/
structure Specifier where
  token : Token
  star : Bool
deriving DecidableEq, Repr

/-- What a specifier requests. -/
def Specifier.value (s : Specifier) : String := s.token.stringValue

-- ---------------------------------------------------------------------------
-- Imports
-- ---------------------------------------------------------------------------

/-- `from 'specifier'` -/
inductive Clause (star : Bool) : List Token → List Specifier → List Token → Prop where
  | mk {word specifier : Token} {rest : List Token} : word.isWord "from" = true →
    specifier.kind = .string → Clause star (word :: specifier :: rest) [⟨specifier, star⟩] rest

/-- What an import binds apart from a default: `* as name`, or a list up to the first closing brace. -/
inductive Bindings : List Token → List Token → Prop where
  | namespace_ {star as name : Token} {rest : List Token} : star.isPunctuator "*" = true →
    as.isWord "as" = true → name.kind = .identifier → Bindings (star :: as :: name :: rest) rest
  | list {opener closer : Token} {ts rest : List Token} : opener.isPunctuator "\x7b" = true →
    ts.dropWhile (·.text ≠ "\x7d") = closer :: rest → Bindings (opener :: ts) rest

/-- An import behind its keyword. A call or a member access declares nothing. -/
inductive Import : List Token → List Specifier → List Token → Prop where
  | expression {t : Token} {ts : List Token} : t.isPunctuator "(" = true ∨ t.isPunctuator "." = true →
    Import (t :: ts) [] (t :: ts)
  | module_ {specifier : Token} {rest : List Token} : specifier.kind = .string →
    Import (specifier :: rest) [⟨specifier, false⟩] rest
  | default_ {name : Token} {ts rest : List Token} {specifiers : List Specifier} :
    name.kind = .identifier → Clause false ts specifiers rest → Import (name :: ts) specifiers rest
  | names {ts ts' rest : List Token} {specifiers : List Specifier} : Bindings ts ts' →
    Clause false ts' specifiers rest → Import ts specifiers rest
  | both {name comma : Token} {ts ts' rest : List Token} {specifiers : List Specifier} :
    name.kind = .identifier → comma.isPunctuator "," = true → Bindings ts ts' →
    Clause false ts' specifiers rest → Import (name :: comma :: ts) specifiers rest

-- ---------------------------------------------------------------------------
-- Exports
-- ---------------------------------------------------------------------------

/-- A word or a string, in place of a name. -/
def IsLabel (t : Token) : Prop := t.kind = .identifier ∨ t.kind = .string

/-- An item of an export list, `label` or `label as label`. -/
inductive Item : List Token → Prop where
  | plain {label : Token} : IsLabel label → label.text ≠ "\x7d" → Item [label]
  | renamed {label as exported : Token} : IsLabel label → label.text ≠ "\x7d" →
    as.isWord "as" = true → IsLabel exported → Item [label, as, exported]

/-- The items of an export list, up to its closing brace. -/
inductive Items : List Token → List Token → Prop where
  | none {closer : Token} {rest : List Token} : closer.text = "\x7d" → Items (closer :: rest) rest
  | last {item rest : List Token} {closer : Token} : Item item → closer.text = "\x7d" →
    Items (item ++ closer :: rest) rest
  | cons {item ts rest : List Token} {comma : Token} : Item item → comma.text = "," →
    Items ts rest → Items (item ++ comma :: ts) rest

/-- A pattern, with `depth` brackets open in it, up to the bracket that closes the last of them. -/
inductive Pattern : Nat → List Token → List Token → Prop where
  | opener {depth : Nat} {t : Token} {ts rest : List Token} : t.kind = .punctuator →
    (closerOf t.text).isSome = true → Pattern (depth + 1) ts rest → Pattern depth (t :: ts) rest
  | closer {depth : Nat} {t : Token} {ts rest : List Token} : t.kind = .punctuator →
    isCloser t.text = true → Pattern (depth + 1) ts rest → Pattern (depth + 2) (t :: ts) rest
  | last {depth : Nat} {t : Token} {rest : List Token} : t.kind = .punctuator →
    isCloser t.text = true → depth ≤ 1 → Pattern depth (t :: rest) rest
  | other {depth : Nat} {t : Token} {ts rest : List Token} : isDelimiter t = false →
    Pattern depth ts rest → Pattern depth (t :: ts) rest

/-- A name of a function, behind a star if it is a generator. -/
inductive FunctionName : List Token → List Token → Prop where
  | plain {name : Token} {rest : List Token} : name.kind = .identifier →
    FunctionName (name :: rest) rest
  | generator {star name : Token} {rest : List Token} : star.isPunctuator "*" = true →
    name.kind = .identifier → FunctionName (star :: name :: rest) rest

/-- One of the words that declare variables. -/
def IsDeclarator (t : Token) : Prop :=
  t.isWord "const" = true ∨ t.isWord "let" = true ∨ t.isWord "var" = true

/-- An export behind its keyword, no further than the names that it exports. Only a star and a list
may name a module. -/
inductive Export : List Token → List Specifier → List Token → Prop where
  | default_ {t : Token} {rest : List Token} : t.isWord "default" = true → Export (t :: rest) [] rest
  | star {star : Token} {ts rest : List Token} {specifiers : List Specifier} :
    star.isPunctuator "*" = true → Clause true ts specifiers rest →
    Export (star :: ts) specifiers rest
  | namespace_ {star as label : Token} {ts rest : List Token} {specifiers : List Specifier} :
    star.isPunctuator "*" = true → as.isWord "as" = true → IsLabel label →
    Clause false ts specifiers rest → Export (star :: as :: label :: ts) specifiers rest
  | list {opener : Token} {ts rest : List Token} : opener.isPunctuator "\x7b" = true →
    Items ts rest → nextIs (Token.isWord · "from") rest = false → Export (opener :: ts) [] rest
  | listFrom {opener : Token} {ts ts' rest : List Token} {specifiers : List Specifier} :
    opener.isPunctuator "\x7b" = true → Items ts ts' → Clause false ts' specifiers rest →
    Export (opener :: ts) specifiers rest
  | binding {t name : Token} {rest : List Token} : IsDeclarator t → name.kind = .identifier →
    Export (t :: name :: rest) [] rest
  | pattern {t opener : Token} {ts rest : List Token} : IsDeclarator t →
    opener.isPunctuator "\x7b" = true ∨ opener.isPunctuator "[" = true →
    Pattern 0 (opener :: ts) rest → Export (t :: opener :: ts) [] rest
  | function {t : Token} {ts rest : List Token} : t.isWord "function" = true →
    FunctionName ts rest → Export (t :: ts) [] rest
  | async {t u : Token} {ts rest : List Token} : t.isWord "async" = true →
    u.isWord "function" = true → FunctionName ts rest → Export (t :: u :: ts) [] rest
  | class_ {t name : Token} {rest : List Token} : t.isWord "class" = true →
    name.kind = .identifier → Export (t :: name :: rest) [] rest

-- ---------------------------------------------------------------------------
-- Modules
-- ---------------------------------------------------------------------------

/-- The tokens of a module, with `depth` brackets open before them, and the specifiers that they
declare. The words `import` and `export` start a declaration outside brackets, unless there is a dot
before them. -/
inductive Declares : (depth : Nat) → (afterDot : Bool) → List Token → List Specifier → Prop where
  | nil {afterDot : Bool} : Declares 0 afterDot [] []
  | opener {depth : Nat} {afterDot : Bool} {t : Token} {ts : List Token}
    {specifiers : List Specifier} : t.kind = .punctuator → (closerOf t.text).isSome = true →
    Declares (depth + 1) false ts specifiers → Declares depth afterDot (t :: ts) specifiers
  | closer {depth : Nat} {afterDot : Bool} {t : Token} {ts : List Token}
    {specifiers : List Specifier} : t.kind = .punctuator → isCloser t.text = true →
    Declares depth false ts specifiers → Declares (depth + 1) afterDot (t :: ts) specifiers
  | import_ {t : Token} {ts rest : List Token} {specifiers specifiers' : List Specifier} :
    t.isWord "import" = true → Import ts specifiers rest → Declares 0 false rest specifiers' →
    Declares 0 false (t :: ts) (specifiers ++ specifiers')
  | export_ {t : Token} {ts rest : List Token} {specifiers specifiers' : List Specifier} :
    t.isWord "export" = true → Export ts specifiers rest → Declares 0 false rest specifiers' →
    Declares 0 false (t :: ts) (specifiers ++ specifiers')
  | pass {depth : Nat} {afterDot : Bool} {t : Token} {ts : List Token}
    {specifiers : List Specifier} : isDelimiter t = false →
    (depth = 0 → afterDot = false → t.isWord "import" = false ∧ t.isWord "export" = false) →
    Declares depth (t.text = ".") ts specifiers → Declares depth afterDot (t :: ts) specifiers

-- ---------------------------------------------------------------------------
-- Only one reading
-- ---------------------------------------------------------------------------

section

variable {star afterDot : Bool} {depth : Nat} {t : Token} {ts rest rest' : List Token}
  {specifiers specifiers' : List Specifier}

/-- A clause is told by its first token. -/
theorem Clause.head (clause : Clause star ts specifiers rest) :
    nextIs (Token.isWord · "from") ts = true := by
  cases clause with
  | mk word => exact word

theorem Clause.unique (first : Clause star ts specifiers rest)
    (second : Clause star ts specifiers' rest') : specifiers = specifiers' ∧ rest = rest' := by
  cases first
  cases second
  exact ⟨rfl, rfl⟩

/-- So are bindings, which start with punctuation. -/
theorem Bindings.head (bindings : Bindings (t :: ts) rest) :
    t.isPunctuator "*" = true ∨ t.isPunctuator "\x7b" = true := by
  cases bindings with
  | namespace_ star => exact Or.inl star
  | list opener => exact Or.inr opener

theorem Bindings.unique (first : Bindings ts rest) (second : Bindings ts rest') : rest = rest' := by
  cases first <;> cases second <;> grind [Token.isPunctuator]

/-- The first tokens of an import tell its form. -/
theorem Import.unique (first : Import ts specifiers rest)
    (second : Import ts specifiers' rest') : specifiers = specifiers' ∧ rest = rest' := by
  cases first <;> cases second <;>
    grind [Token.isPunctuator, Token.isWord, nextIs, → Bindings.head, → Clause.head,
      Bindings.unique, Clause.unique]

/-- An item of an export list is followed by a token that does not go on with it. -/
theorem Item.eq_or (item : Item ts) :
    (∃ label, ts = [label] ∧ label.text ≠ "\x7d") ∨
      ∃ label as exported, ts = [label, as, exported] ∧ label.text ≠ "\x7d" ∧ as.text = "as" := by
  cases item with
  | plain _ other => exact Or.inl ⟨_, rfl, other⟩
  | renamed _ other as => exact Or.inr ⟨_, _, _, rfl, other, (isWord_eq as).2⟩

theorem Items.unique (first : Items ts rest) (second : Items ts rest') : rest = rest' := by
  generalize same : ts = ts' at second
  induction first generalizing ts' <;> cases second <;> grind [→ Item.eq_or]

theorem closerOf_eq_none {text : String} (closer : isCloser text = true) : closerOf text = none := by
  grind [isCloser, closerOf]

theorem Pattern.unique (first : Pattern depth ts rest) (second : Pattern depth ts rest') :
    rest = rest' := by
  induction first with
  | opener kind opens _ ih =>
    cases second with
    | opener _ _ inside => exact ih inside
    | closer | last | other => grind [isDelimiter, closerOf_eq_none]
  | closer kind closes _ ih =>
    cases second with
    | closer _ _ inside => exact ih inside
    | opener | last | other => grind [isDelimiter, closerOf_eq_none]
  | last kind closes outermost =>
    cases second with
    | last => rfl
    | opener | closer | other => grind [isDelimiter, closerOf_eq_none]
  | other plain _ ih =>
    cases second with
    | other _ inside => exact ih inside
    | opener | closer | last => grind [isDelimiter]

theorem FunctionName.unique (first : FunctionName ts rest) (second : FunctionName ts rest') :
    rest = rest' := by
  cases first <;> cases second <;> grind [Token.isPunctuator]

/-- So do those of an export, behind which its parts are told apart. -/
theorem Export.unique (first : Export ts specifiers rest)
    (second : Export ts specifiers' rest') : specifiers = specifiers' ∧ rest = rest' := by
  cases first <;> cases second <;>
    grind [Token.isPunctuator, Token.isWord, IsDeclarator, nextIs, → Clause.head, Clause.unique,
      Items.unique, FunctionName.unique, Pattern.unique]

/-- The tokens of a module determine the specifiers that they declare. -/
theorem Declares.unique (first : Declares depth afterDot ts specifiers)
    (second : Declares depth afterDot ts specifiers') : specifiers = specifiers' := by
  induction first generalizing specifiers' with
  | nil =>
    cases second
    rfl
  | opener kind opens _ ih =>
    cases second with
    | opener _ _ inside => exact ih inside
    | closer | import_ | export_ | pass => grind [isDelimiter, closerOf_eq_none, Token.isWord]
  | closer kind closes _ ih =>
    cases second with
    | closer _ _ outside => exact ih outside
    | opener | pass => grind [isDelimiter, closerOf_eq_none]
  | import_ word form _ ih =>
    cases second with
    | import_ _ form' behind =>
      obtain ⟨rfl, rfl⟩ := form.unique form'
      rw [ih behind]
    | opener | export_ | pass => grind [Token.isWord]
  | export_ word form _ ih =>
    cases second with
    | export_ _ form' behind =>
      obtain ⟨rfl, rfl⟩ := form.unique form'
      rw [ih behind]
    | opener | import_ | pass => grind [Token.isWord]
  | pass plain word _ ih =>
    cases second with
    | pass _ _ behind => exact ih behind
    | opener | closer | import_ | export_ => grind [isDelimiter, Token.isWord]

end

end Esm.Interface.Declared
