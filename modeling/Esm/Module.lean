-- SUMMARY: Compiled modules.
import Esm.Code
import Esm.SyntaxError

/-!
# Modules

A compiled module is a name, an interface and code. Compiling reads and checks a source; nothing is
run.
-/

namespace Esm

/-- A compiled module. -/
structure Module where
  name : String
  interface : Interface
  code : Code
deriving DecidableEq, Repr

namespace Module

/-- Compile a source under a name. -/
def compile (source name : String) : Except SyntaxError Module := do
  let tokens ← (tokenize source).mapError (SyntaxError.lexical source)
  let interface ←
    (Interface.ofTokens source.utf8ByteSize tokens).mapError (SyntaxError.declaration source)
  .ok ⟨name, interface, Code.ofTokens tokens⟩

/-- A source compiles if it is one of tokens and these declare an interface. -/
theorem compile_eq_ok {source name : String} {m : Module} : compile source name = .ok m ↔
    ∃ tokens interface, tokenize source = .ok tokens ∧
      Interface.ofTokens source.utf8ByteSize tokens = .ok interface ∧
      m = ⟨name, interface, Code.ofTokens tokens⟩ := by
  unfold compile
  constructor
  · intro h
    obtain ⟨tokens, scanned, h⟩ := Interface.bind_eq_ok.1 h
    obtain ⟨interface, declared, h⟩ := Interface.bind_eq_ok.1 h
    cases hscan : tokenize source with
    | error failure =>
      rw [hscan] at scanned
      cases scanned
    | ok tokens' =>
      rw [hscan] at scanned
      cases scanned
      cases hread : Interface.ofTokens source.utf8ByteSize tokens with
      | error failure =>
        rw [hread] at declared
        cases declared
      | ok interface' =>
        rw [hread] at declared
        cases declared
        cases h
        exact ⟨tokens, interface, rfl, hread, rfl⟩
  · rintro ⟨tokens, interface, scanned, declared, rfl⟩
    rw [scanned]
    show ((Interface.ofTokens source.utf8ByteSize tokens).mapError _ >>= _) = _
    rw [declared]
    rfl

/-- A source that is not one of tokens is refused for that. -/
theorem compile_eq_lexical {source name : String} {failure : Scanner.Failure}
    (scanned : tokenize source = .error failure) :
    compile source name = .error (SyntaxError.lexical source failure) := by
  unfold compile
  rw [scanned]
  rfl

/-- Tokens that do not declare an interface are refused for that. -/
theorem compile_eq_declaration {source name : String} {tokens : List Token}
    {failure : Interface.Failure} (scanned : tokenize source = .ok tokens)
    (declared : Interface.ofTokens source.utf8ByteSize tokens = .error failure) :
    compile source name = .error (SyntaxError.declaration source failure) := by
  unfold compile
  rw [scanned]
  show ((Interface.ofTokens source.utf8ByteSize tokens).mapError _ >>= _) = _
  rw [declared]
  rfl

theorem name_compile {source name : String} {m : Module} (h : compile source name = .ok m) :
    m.name = name := by
  obtain ⟨tokens, interface, -, -, rfl⟩ := compile_eq_ok.1 h
  rfl

/-- An empty source compiles to a module that has nothing but its name. -/
theorem compile_empty (name : String) : compile "" name = .ok ⟨name, .empty, ⟨[], []⟩⟩ := by
  have tokens : tokenize "" = .ok [] := Scanner.tokens_nil 0 none
  exact compile_eq_ok.2 ⟨_, _, tokens, Interface.statements_nil _ _ _, rfl⟩

/-- Whether the module exports a name of its own. -/
def hasExport (m : Module) (name : String) : Bool := m.interface.exports.contains name

end Module

end Esm
