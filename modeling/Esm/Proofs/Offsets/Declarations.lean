-- SUMMARY: Reading import and export declarations by index and byte offset.
import Esm.Interface.Analysis
import Esm.Proofs.Offsets.Attempt

/-!
# Declarations by index and offset

The readers of declarations can go through the spans of a source by index. They cut out the text of
every token that they look at, they look back at the token before by counting the index down, they
count the brackets of a pattern down as well, and they cut the quotes off a string. Apart from that
they read as the readers of tokens do. Where a reader goes on from token to token, `fuel` says how
often it may.
-/

namespace Esm.Offsets

open Text Attempt

section

variable (source : List Char)

-- ---------------------------------------------------------------------------
-- Values of tokens
-- ---------------------------------------------------------------------------

/-- The value of a string, cut out between its first and its last byte. -/
def stringValue? (t : Token) : Option String := do
  let last ← down? (byteLength t.text.toList)
  let inside ← slice? t.text.toList 1 last
  some (String.ofList (unescape inside))

/-- The name that a token gives in a list. -/
def bindingName (t : Token) : Attempt String :=
  match t.kind with
  | .identifier => pure t.text
  | .string => look (stringValue? t)
  | _ => refuse source (.declaration (.unexpectedToken t.text)) t.start

/-- Export a name that the token `t` gives. -/
def addExport (m : Interface) (t : Token) (name : String) : Attempt Interface :=
  if name ∈ m.exports then refuse source (.declaration (.duplicateExport name)) t.start
  else pure { m with exports := m.exports ++ [name] }

-- ---------------------------------------------------------------------------
-- Single tokens
-- ---------------------------------------------------------------------------

variable (spans : List Span)

/-- The token at an index, if there is one. -/
def peek (pos : Nat) : Attempt (Option Token) :=
  match spans[pos]? with
  | none => pure none
  | some span => do
    let t ← look (token? source span)
    pure (some t)

/-- Whether the token at an index passes a test. -/
def nextIs (test : Token → Bool) (pos : Nat) : Attempt Bool := do
  let t ← peek source spans pos
  pure (t.any test)

/-- The token before an index. -/
def previous (pos : Nat) : Attempt Token := do
  let before ← look (down? pos)
  let span ← look spans[before]?
  look (token? source span)

/-- Whether the token before an index is a dot. There is none before the first. -/
def afterDot (pos : Nat) : Attempt Bool :=
  if pos = 0 then pure false
  else do
    let t ← previous source spans pos
    pure (t.text = ".")

/-- Take any token. -/
def take (pos : Nat) : Attempt (Token × Nat) := do
  match ← peek source spans pos with
  | none => refuse source (.declaration .endOfInput) (byteLength source)
  | some t => pure (t, pos + 1)

/-- Take a token of one kind. -/
def takeOf (kind : TokenKind) (pos : Nat) : Attempt (Token × Nat) := do
  let (t, pos) ← take source spans pos
  if t.kind = kind then pure (t, pos)
  else refuse source (.declaration (.unexpectedToken t.text)) t.start

/-- Take one word. -/
def takeWord (word : String) (pos : Nat) : Attempt (Token × Nat) := do
  let (t, pos) ← take source spans pos
  if t.isWord word then pure (t, pos)
  else refuse source (.declaration (.expectedWord word)) t.start

/-- `from 'specifier'`, in a declaration that started at `keyword`. -/
def fromClause (keyword : Token) (add : String → Interface) (pos : Nat) :
    Attempt (Interface × Nat) := do
  if ← nextIs source spans (Token.isWord · "from") pos then
    let (specifier, pos) ← takeOf source spans .string (pos + 1)
    let value ← look (stringValue? specifier)
    pure (add value, pos)
  else
    let t ← peek source spans pos
    refuse source (.declaration .expectedFromClause) (t.getD keyword).start

-- ---------------------------------------------------------------------------
-- Imports
-- ---------------------------------------------------------------------------

/-- Pass over an import list up to its closing brace. -/
def skipImportList (opener : Token) : (fuel pos : Nat) → Attempt Nat
  | 0, _ => unfinished
  | fuel + 1, pos => do
    let (t, pos) ← tryCatch (take source spans pos) fun _ =>
      refuse source (.declaration (.neverClosed "\x7b")) opener.start
    if t.text = "\x7d" then pure pos else skipImportList opener fuel pos

/-- The bindings of an import behind any default binding, and the clause that names the module. -/
def importBindings (fuel : Nat) (keyword : Token) (m : Interface) (pos : Nat) :
    Attempt (Interface × Nat) := do
  if ← nextIs source spans (Token.isPunctuator · "*") pos then
    let (_, pos) ← takeWord source spans "as" (pos + 1)
    let (_, pos) ← takeOf source spans .identifier pos
    fromClause source spans keyword m.addRequest pos
  else if ← nextIs source spans (Token.isPunctuator · "\x7b") pos then
    let (opener, pos) ← take source spans pos
    let pos ← skipImportList source spans opener fuel pos
    fromClause source spans keyword m.addRequest pos
  else
    let t ← peek source spans pos
    refuse source (.declaration .unexpectedInImport) (t.getD keyword).start

/-- The declaration at the word `import`. -/
def importDeclaration (fuel : Nat) (m : Interface) (pos : Nat) : Attempt (Interface × Nat) := do
  let (keyword, pos) ← take source spans pos
  match ← peek source spans pos with
  | none => refuse source (.declaration (.endAfter "import")) keyword.start
  | some t =>
    if t.isPunctuator "(" || t.isPunctuator "." then pure (m, pos)
    else if t.kind = .string then
      let specifier ← look (stringValue? t)
      pure (m.addRequest specifier, pos + 1)
    else if t.kind = .identifier then
      let (binding, pos) ← take source spans pos
      if binding.text = "from" && (← nextIs source spans (·.kind == .string) pos) then
        refuse source (.declaration (.unexpectedToken "from")) binding.start
      else if ← nextIs source spans (Token.isPunctuator · ",") pos then
        importBindings source spans fuel keyword m (pos + 1)
      else fromClause source spans keyword m.addRequest pos
    else importBindings source spans fuel keyword m pos

-- ---------------------------------------------------------------------------
-- Exports
-- ---------------------------------------------------------------------------

/-- One item of an export list, whose first token is `t`. -/
def exportItem (m : Interface) (t : Token) (pos : Nat) : Attempt (Interface × Nat) := do
  let name ← bindingName source t
  if ← nextIs source spans (Token.isWord · "as") pos then
    let (exported, pos) ← take source spans (pos + 1)
    let name ← bindingName source exported
    let m ← addExport source m exported name
    pure (m, pos)
  else
    let m ← addExport source m t name
    pure (m, pos)

/-- An export list behind its opening brace. -/
def exportList : (fuel : Nat) → Interface → Nat → Attempt (Interface × Nat)
  | 0, _, _ => unfinished
  | fuel + 1, m, pos => do
    let (t, pos) ← take source spans pos
    if t.text = "\x7d" then pure (m, pos)
    else
      let (m, pos) ← exportItem source spans m t pos
      let (separator, pos) ← take source spans pos
      if separator.text = "," then exportList fuel m pos
      else if separator.text = "\x7d" then pure (m, pos)
      else
        refuse source (.declaration (.unexpectedInExportList separator.text)) separator.start

/-- The names bound by a pattern, with `depth` brackets open in it. -/
def bindingPattern : (fuel : Nat) → Interface → (depth : Nat) → (inDefault : Bool) → Nat →
    Attempt (Interface × Nat)
  | 0, _, _, _, _ => unfinished
  | fuel + 1, m, depth, inDefault, pos => do
    let (t, pos) ← take source spans pos
    match t.kind with
    | .punctuator =>
      if ["\x7b", "[", "("].contains t.text then bindingPattern fuel m (depth + 1) inDefault pos
      else if ["\x7d", "]", ")"].contains t.text then
        let depth ← look (down? depth)
        if depth = 0 then pure (m, pos) else bindingPattern fuel m depth false pos
      else if t.text = "," then bindingPattern fuel m depth false pos
      else if t.text = "=" then bindingPattern fuel m depth true pos
      else bindingPattern fuel m depth inDefault pos
    | .identifier =>
      let ends ← nextIs source spans (fun next => [",", "\x7d", "]", "="].contains next.text) pos
      if !inDefault && ends then
        let m ← addExport source m t t.text
        bindingPattern fuel m depth inDefault pos
      else bindingPattern fuel m depth inDefault pos
    | _ => bindingPattern fuel m depth inDefault pos

/-- Export the name of a function or class. -/
def exportedName (m : Interface) (pos : Nat) : Attempt (Interface × Nat) := do
  let (t, pos) ← takeOf source spans .identifier pos
  let m ← addExport source m t t.text
  pure (m, pos)

/-- Behind `export function`: a star, if there is one, and the name. -/
def exportedFunction (m : Interface) (pos : Nat) : Attempt (Interface × Nat) := do
  let star ← nextIs source spans (Token.isPunctuator · "*") pos
  exportedName source spans m (if star then pos + 1 else pos)

/-- The first binding behind `export const`, `let` or `var`. Where the source ends, the fault is at
the token before. -/
def exportedBinding (fuel : Nat) (m : Interface) (pos : Nat) : Attempt (Interface × Nat) := do
  match ← peek source spans pos with
  | none =>
    let keyword ← previous source spans pos
    refuse source (.declaration .endOfInput) keyword.start
  | some t =>
    if t.kind = .identifier then
      let m ← addExport source m t t.text
      pure (m, pos + 1)
    else if t.isPunctuator "\x7b" || t.isPunctuator "[" then
      bindingPattern source spans fuel m 0 false pos
    else refuse source (.declaration (.unexpectedInBinding t.text)) t.start

/-- Behind `export *`: an alias, if there is one, and the clause that names the module. -/
def exportedStar (keyword : Token) (m : Interface) (pos : Nat) : Attempt (Interface × Nat) := do
  if ← nextIs source spans (Token.isWord · "as") pos then
    let (exported, pos) ← take source spans (pos + 1)
    let name ← bindingName source exported
    let m ← addExport source m exported name
    fromClause source spans keyword m.addRequest pos
  else fromClause source spans keyword m.addStar pos

/-- The declaration at the word `export`. -/
def exportDeclaration (fuel : Nat) (m : Interface) (pos : Nat) : Attempt (Interface × Nat) := do
  let (keyword, pos) ← take source spans pos
  let (t, pos) ← tryCatch (take source spans pos) fun _ =>
    refuse source (.declaration (.endAfter "export")) keyword.start
  if t.isWord "default" then
    let m ← addExport source m t "default"
    pure (m, pos)
  else if t.isPunctuator "*" then exportedStar source spans keyword m pos
  else if t.isPunctuator "\x7b" then
    let (m, pos) ← exportList source spans fuel m pos
    if ← nextIs source spans (Token.isWord · "from") pos then
      fromClause source spans keyword m.addRequest pos
    else pure (m, pos)
  else if t.isWord "const" || t.isWord "let" || t.isWord "var" then
    exportedBinding source spans fuel m pos
  else if t.isWord "async" then
    let (_, pos) ← takeWord source spans "function" pos
    exportedFunction source spans m pos
  else if t.isWord "function" then exportedFunction source spans m pos
  else if t.isWord "class" then exportedName source spans m pos
  else refuse source (.declaration (.unexpectedAfterExport t.text)) t.start

-- ---------------------------------------------------------------------------
-- Modules
-- ---------------------------------------------------------------------------

/-- The brackets that are open behind the closing bracket `t`, the innermost first. -/
def closed (t : Token) : (opened : List Span) → Attempt (List Span)
  | [] => refuse source (.declaration (.unexpectedToken t.text)) t.start
  | opener :: opened => do
    let opener ← look (token? source opener)
    if Interface.closerOf opener.text = some t.text then pure opened
    else refuse source (.declaration (.unexpectedToken t.text)) t.start

/-- What is declared where the tokens end: no bracket may be open there. -/
def ended (m : Interface) : (opened : List Span) → Attempt Interface
  | [] => pure m
  | opener :: _ => do
    let opener ← look (token? source opener)
    refuse source (.declaration (.neverClosed opener.text)) opener.start

/-- All declarations of a module. -/
def statements : (fuel : Nat) → Interface → (opened : List Span) → Nat → Attempt Interface
  | 0, _, _, _ => unfinished
  | fuel + 1, m, opened, pos => do
    match ← peek source spans pos with
    | none => ended source m opened
    | some t =>
      if t.kind = .punctuator then
        if (Interface.closerOf t.text).isSome then
          statements fuel m (spanOf t :: opened) (pos + 1)
        else if Interface.isCloser t.text then
          let opened ← closed source t opened
          statements fuel m opened (pos + 1)
        else statements fuel m opened (pos + 1)
      else if t.kind = .identifier && opened.isEmpty then
        let dotted ← afterDot source spans pos
        if !dotted && t.text = "import" then
          let (m, pos) ← importDeclaration source spans fuel m pos
          statements fuel m opened pos
        else if !dotted && t.text = "export" then
          let (m, pos) ← exportDeclaration source spans fuel m pos
          statements fuel m opened pos
        else statements fuel m opened (pos + 1)
      else statements fuel m opened (pos + 1)

end

end Esm.Offsets
