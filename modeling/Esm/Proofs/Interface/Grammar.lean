-- SUMMARY: The statements of a module as syntax trees, with their tokens and what they say of the interface.
import Esm.Proofs.Interface.Nested
import Esm.Proofs.Token.Scanned

/-!
# Grammar

A module is a sequence of statements, each ended by a semicolon: imports and exports in their
several forms, and code. A tree holds tokens that the scanner can yield. A name is any word, also one
that has a meaning of its own at other places of a declaration, such as `from`, `as` or `default`.
-/

namespace Esm.Grammar

open Interface

-- ---------------------------------------------------------------------------
-- Tokens
-- ---------------------------------------------------------------------------

def keyword (text : String) : Token := ⟨.identifier, 0, text⟩

def mark (text : String) : Token := ⟨.punctuator, 0, text⟩

/-- A token of one kind that the scanner can yield. -/
structure Lexed (kind : TokenKind) where
  token : Token
  kind_eq : token.kind = kind
  scanned : token.Scanned

/-- Any word. -/
abbrev Name := Lexed .identifier

/-- Any string. -/
abbrev Literal := Lexed .string

/-- What stands for a name in a list: a word or a string. -/
inductive Label where
  | word (name : Name)
  | string (literal : Literal)

def Label.token : Label → Token
  | .word name => name.token
  | .string literal => literal.token

def Label.value : Label → String
  | .word name => name.token.text
  | .string literal => literal.token.stringValue

theorem keyword_default_scanned : (keyword "default").Scanned :=
  have letters : ∀ x ∈ "efault".toList, Text.isIdentifierContinue x = true :=
    List.all_eq_true.1 (by decide)
  ⟨_, _, Scanner.next_word (c := 'd') (d := ';') (by decide) (by decide) (by decide) letters
    (by decide) [] 0 none⟩

/-- The name of what `export default` exports. -/
def defaultLabel : Label := .word ⟨keyword "default", rfl, keyword_default_scanned⟩

/-- Code in which brackets nest and that has no declaration of its own outside brackets. -/
structure Passage where
  tokens : List Token
  silent : Silent false tokens

-- ---------------------------------------------------------------------------
-- Lists
-- ---------------------------------------------------------------------------

/-- Parts of a list, with commas between them. -/
def separated (parts : List (List Token)) : List Token := [mark ","].intercalate parts

/-- An item of an import list: `name` or `label as name`. -/
inductive ImportItem where
  | plain (name : Name)
  | renamed (label : Label) (name : Name)

def ImportItem.tokens : ImportItem → List Token
  | .plain name => [name.token]
  | .renamed label name => [label.token, keyword "as", name.token]

/-- An item of an export list: `label` or `label as label`. -/
structure ExportItem where
  label : Label
  renamed : Option Label

namespace ExportItem

/-- What comes behind the first label. -/
def alias_ (item : ExportItem) : List Token :=
  match item.renamed with
  | none => []
  | some label => [keyword "as", label.token]

def tokens (item : ExportItem) : List Token := item.label.token :: item.alias_

/-- The label under which the item is exported. -/
def exported (item : ExportItem) : Label := item.renamed.getD item.label

end ExportItem

/-- What an import binds apart from a default: `* as name` or a list. -/
inductive Bindings where
  | namespace_ (name : Name)
  | list (items : List ImportItem)

def Bindings.tokens : Bindings → List Token
  | .namespace_ name => [mark "*", keyword "as", name.token]
  | .list items => mark "\x7b" :: (separated (items.map ImportItem.tokens) ++ [mark "\x7d"])

-- ---------------------------------------------------------------------------
-- Statements
-- ---------------------------------------------------------------------------

/-- The words that declare variables. -/
inductive Declarator where
  | const_
  | let_
  | var_

def Declarator.keyword : Declarator → Token
  | .const_ => Grammar.keyword "const"
  | .let_ => Grammar.keyword "let"
  | .var_ => Grammar.keyword "var"

/-- A statement, without the semicolon behind it. -/
inductive Statement where
  /-- `import 'm'` -/
  | importModule (specifier : Literal)
  /-- `import name from 'm'` -/
  | importDefault (name : Name) (specifier : Literal)
  /-- `import bindings from 'm'` or `import name, bindings from 'm'` -/
  | importBindings (name : Option Name) (bindings : Bindings) (specifier : Literal)
  /-- `export default code` -/
  | exportDefault (code : Passage)
  /-- An export list, with or without `from 'm'` -/
  | exportList (items : List ExportItem) (specifier : Option Literal)
  /-- `export * from 'm'` -/
  | exportStar (specifier : Literal)
  /-- `export * as label from 'm'` -/
  | exportNamespace (label : Label) (specifier : Literal)
  /-- `export const name = code`, or with another declarator -/
  | exportBinding (declarator : Declarator) (name : Name) (code : Passage)
  /-- `export function name code`, perhaps with `async` before and a star behind `function` -/
  | exportFunction (async generator : Bool) (name : Name) (code : Passage)
  /-- `export class name code` -/
  | exportClass (name : Name) (code : Passage)
  /-- Code that is neither import nor export -/
  | plain (code : Passage)

/-- `from 'm'` -/
def clause (specifier : Literal) : List Token := [keyword "from", specifier.token]

namespace Statement

def tokens : Statement → List Token
  | .importModule specifier => [keyword "import", specifier.token]
  | .importDefault name specifier => keyword "import" :: name.token :: clause specifier
  | .importBindings none bindings specifier =>
    keyword "import" :: (bindings.tokens ++ clause specifier)
  | .importBindings (some name) bindings specifier =>
    keyword "import" :: name.token :: mark "," :: (bindings.tokens ++ clause specifier)
  | .exportDefault code => keyword "export" :: keyword "default" :: code.tokens
  | .exportList items specifier =>
    keyword "export" :: mark "\x7b" :: (separated (items.map ExportItem.tokens) ++
      mark "\x7d" :: specifier.elim [] clause)
  | .exportStar specifier => keyword "export" :: mark "*" :: clause specifier
  | .exportNamespace label specifier =>
    keyword "export" :: mark "*" :: keyword "as" :: label.token :: clause specifier
  | .exportBinding declarator name code =>
    keyword "export" :: declarator.keyword :: name.token :: mark "=" :: code.tokens
  | .exportFunction async generator name code =>
    keyword "export" :: ((if async then [keyword "async"] else []) ++ keyword "function" ::
      ((if generator then [mark "*"] else []) ++ name.token :: code.tokens))
  | .exportClass name code => keyword "export" :: keyword "class" :: name.token :: code.tokens
  | .plain code => code.tokens

/-- The labels that a statement exports, in their order. -/
def exported : Statement → List Label
  | .exportDefault _ => [defaultLabel]
  | .exportList items _ => items.map ExportItem.exported
  | .exportNamespace label _ => [label]
  | .exportBinding _ name _ => [.word name]
  | .exportFunction _ _ name _ => [.word name]
  | .exportClass name _ => [.word name]
  | _ => []

/-- The names that a statement exports, in their order. -/
def exports (s : Statement) : List String := s.exported.map Label.value

/-- The string that names another module. -/
def specifier? : Statement → Option Literal
  | .importModule specifier => some specifier
  | .importDefault _ specifier => some specifier
  | .importBindings _ _ specifier => some specifier
  | .exportList _ specifier => specifier
  | .exportStar specifier => some specifier
  | .exportNamespace _ specifier => some specifier
  | _ => none

/-- The specifier that a statement requests, if it names another module. -/
def requests (s : Statement) : List String :=
  s.specifier?.toList.map fun literal => literal.token.stringValue

/-- The specifier whose exports a statement passes on. -/
def starExports : Statement → List String
  | .exportStar specifier => [specifier.token.stringValue]
  | _ => []

/-- What a statement says of the interface. -/
def interface (s : Statement) : Interface := ⟨s.requests, s.exports, s.starExports⟩

end Statement

/-- The tokens of a module. -/
def render (ss : List Statement) : List Token := ss.flatMap fun s => s.tokens ++ [mark ";"]

/-- What the statements of a module say one after the other: a specifier is requested once, where it
comes first. -/
def interface (ss : List Statement) : Interface :=
  ⟨(ss.flatMap Statement.requests).eraseDups, ss.flatMap Statement.exports,
    ss.flatMap Statement.starExports⟩

end Esm.Grammar
