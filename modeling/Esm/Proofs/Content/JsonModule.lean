-- SUMMARY: Every document becomes a module of nine tokens, one of which holds the document.
import Esm.Content.JsonModule
import Esm.Proofs.Code.Lowering

/-!
# JSON modules

However a document is made up, it stays inside the template literal it is put into: the escaped text
neither ends the literal nor opens a substitution. So the module of a document is always the same
nine tokens but for the text of the literal, and that text gives the document back.
-/

namespace Esm.JsonModule

open Lexeme Scanner

-- ---------------------------------------------------------------------------
-- Escaping
-- ---------------------------------------------------------------------------

/-- A text without the backslashes that escape the character behind them. -/
def unescaped : List Char → List Char
  | [] => []
  | '\\' :: c :: rest => c :: unescaped rest
  | c :: rest => c :: unescaped rest

theorem unescaped_cons {c : Char} (plain : c ≠ '\\') (rest : List Char) :
    unescaped (c :: rest) = c :: unescaped rest := by
  rw [unescaped]
  intro d ds same
  exact absurd same plain

theorem unescaped_escape (document : List Char) : unescaped (escape document) = document := by
  induction document with
  | nil => rfl
  | cons c rest ih =>
    unfold escape
    split
    · rw [unescaped, ih]
    · rename_i plain
      simp only [Bool.or_eq_true, decide_eq_true_eq, not_or] at plain
      rw [unescaped_cons plain.1.1, ih]

/-- What is escaped starts with an opening brace only if it did so before. -/
theorem head?_escape {document rest : List Char} (brace : document.head? ≠ some '\x7b') :
    (escape document ++ backtick :: rest).head? ≠ some '\x7b' := by
  cases document with
  | nil => exact nofun
  | cons c document =>
    unfold escape
    split
    · exact nofun
    · exact brace

/-- The text of a template is read through the whole of an escaped document. -/
theorem templateChunk_escape (document rest : List Char) :
    templateChunk (escape document ++ backtick :: rest) =
      ⟨escape document ++ [backtick], rest, .closed⟩ := by
  induction document with
  | nil => exact templateChunk_cons (by decide) nofun
  | cons c document ih =>
    unfold escape
    split
    · -- an escape is taken along with its character
      simp only [List.cons_append]
      rw [templateChunk, ih]
      rfl
    · rename_i plain
      simp only [Bool.or_eq_true, Bool.and_eq_true, decide_eq_true_eq, not_or, beq_iff_eq,
        not_and] at plain
      obtain ⟨⟨escape_, template⟩, opening⟩ := plain
      rw [List.cons_append, templateChunk_cons escape_ fun dollar => head?_escape (opening dollar),
        if_neg (show c ≠ backtick from template), ih]
      rfl

-- ---------------------------------------------------------------------------
-- Tokens
-- ---------------------------------------------------------------------------

/-- The template literal that holds a document. -/
def template (document : String) : List Char :=
  backtick :: (escape document.toList ++ [backtick])

/-- The tokens of the module for a document. -/
def tokens (document : String) : List Token :=
  let stop := 26 + Text.byteLength (template document)
  [⟨.identifier, 0, "export"⟩, ⟨.identifier, 7, "default"⟩, ⟨.identifier, 15, "JSON"⟩,
    ⟨.punctuator, 19, "."⟩, ⟨.identifier, 20, "parse"⟩, ⟨.punctuator, 25, "("⟩,
    ⟨.template, 26, String.ofList (template document)⟩, ⟨.punctuator, stop, ")"⟩,
    ⟨.punctuator, stop + 1, ";"⟩]

theorem toList_wrap (document : String) : (wrap document).toList =
    'e' :: ("xport".toList ++ ' ' :: 'd' :: ("efault".toList ++ ' ' :: 'J' :: ("SON".toList ++
      '.' :: 'p' :: ("arse".toList ++ '(' :: backtick :: (escape document.toList ++
        backtick :: ')' :: ';' :: []))))) := by
  unfold wrap
  rw [String.toList_append, String.toList_append, String.toList_ofList]
  simp [opening, closing, backtick]

theorem tokenize_wrap (document : String) : tokenize (wrap document) = .ok (tokens document) := by
  have plain : ¬ "#!".toList <+: (wrap document).toList := by
    rw [toList_wrap]
    simp
  have blank : ∀ (rest : List Char) (offset : Nat) (previous : Option Token),
      next ⟨' ' :: rest, offset, previous⟩ = next ⟨rest, offset + 1, previous⟩ :=
    next_blank (by decide)
  have letters : ∀ word : String, (word.toList.all Text.isIdentifierContinue) = true →
      ∀ x ∈ word.toList, Text.isIdentifierContinue x = true := fun _ all => List.all_eq_true.1 all
  unfold tokenize
  rw [ofSource_plain plain, toList_wrap]
  -- `export default`
  refine tokens_cons (next_word (by decide) (by decide) (by decide) (letters "xport" (by decide))
    (by decide) _ _ _) nofun ?_
  refine tokens_cons ((blank _ _ _).trans (next_word (by decide) (by decide) (by decide)
    (letters "efault" (by decide)) (by decide) _ _ _)) nofun ?_
  -- `JSON.parse`
  refine tokens_cons ((blank _ _ _).trans (next_word (by decide) (by decide) (by decide)
    (letters "SON" (by decide)) (by decide) _ _ _)) nofun ?_
  refine tokens_cons (next_mark (by decide) (fun _ => rfl) _ _) nofun ?_
  refine tokens_cons (next_word (by decide) (by decide) (by decide) (letters "arse" (by decide))
    (by decide) _ _ _) nofun ?_
  -- the literal between its parentheses
  refine tokens_cons (next_mark (by decide) (fun point => absurd point (by decide)) _ _) nofun ?_
  refine tokens_cons (next_template (templateChunk_escape _ _) _ _) nofun ?_
  refine tokens_cons (next_mark (by decide) (by decide) _ _) nofun ?_
  refine tokens_cons (next_mark (by decide) (by decide) _ _) nofun ?_
  exact tokens_nil _ _

/-- Only the word `default` tells something about the interface. -/
theorem ofTokens_tokens (stop : Nat) (document : String) :
    Interface.ofTokens stop (tokens document) = .ok ⟨[], ["default"], []⟩ := by
  unfold tokens Interface.ofTokens
  simp [Interface.statements, Interface.exportDeclaration, Interface.closerOf, Interface.isCloser,
    Token.isWord, Interface.addExport, Interface.empty, bind, Except.bind]

/-- Every document becomes, under any name, a module that requests nothing and exports nothing but a
default. Its code is nine tokens, one of them a template, and that template without its backticks
and its escapes is the document. -/
theorem compile_wrap (document name : String) : ∃ m body,
    Module.compile (wrap document) name = .ok m ∧ m.name = name ∧
      m.interface = ⟨[], ["default"], []⟩ ∧
      m.code.listing = [(.identifier, some "export"), (.identifier, some "default"),
        (.identifier, some "JSON"), (.punctuator, some "."), (.identifier, some "parse"),
        (.punctuator, some "("),
        (.template, some (String.ofList (backtick :: (body ++ [backtick])))),
        (.punctuator, some ")"), (.punctuator, some ";")] ∧
      unescaped body = document.toList := by
  have compiled : Module.compile (wrap document) name =
      .ok ⟨name, ⟨[], ["default"], []⟩, Code.ofTokens (tokens document)⟩ :=
    Module.compile_eq_ok.2 ⟨_, _, tokenize_wrap document, ofTokens_tokens _ document, rfl⟩
  have few : (tokens document).length ≤ UInt32.size := show 9 ≤ UInt32.size by decide
  exact ⟨_, escape document.toList, compiled, rfl, rfl, Code.listing_ofTokens few,
    unescaped_escape document.toList⟩

end Esm.JsonModule
