-- SUMMARY: What a module imports and exports, and the faults of its declarations.
import Esm.Text.Escapes
import Esm.Text.Position
import Esm.Token.Basic

/-!
# Interfaces

The interface of a module is what can be told without running it: the specifiers it requests, the
names it exports and the specifiers whose exports it passes on. Requests keep the order of their
first appearance; a name is exported once.
-/

namespace Esm

open Text

/-- What a module's static declarations say. -/
structure Interface where
  requests : List String
  exports : List String
  starExports : List String
deriving DecidableEq, Repr

namespace Interface

/-- What is wrong with a declaration or with the nesting of delimiters. -/
inductive Fault where
  | unexpectedToken (text : String)
  | unexpectedInImport
  | unexpectedAfterExport (text : String)
  | unexpectedInExportList (text : String)
  | unexpectedInBinding (text : String)
  | expectedWord (word : String)
  | expectedFromClause
  | duplicateExport (name : String)
  | neverClosed (opener : String)
  | endAfter (keyword : String)
  | endOfInput
deriving DecidableEq, Repr

/-- A fault at a byte offset. -/
abbrev Failure := Located Fault

def empty : Interface := ⟨[], [], []⟩

/-- Request a specifier, unless it is requested already. -/
def addRequest (m : Interface) (specifier : String) : Interface :=
  if specifier ∈ m.requests then m else { m with requests := m.requests ++ [specifier] }

/-- Pass on the exports of a specifier, which is thereby requested. -/
def addStar (m : Interface) (specifier : String) : Interface :=
  { m with starExports := m.starExports ++ [specifier] }.addRequest specifier

/-- Export a name that the token `t` gives. -/
def addExport (m : Interface) (t : Token) (name : String) : Except Failure Interface :=
  if name ∈ m.exports then .error ⟨.duplicateExport name, t.start⟩
  else .ok { m with exports := m.exports ++ [name] }

theorem exports_addExport {m m' : Interface} {t : Token} {name : String}
    (h : m.addExport t name = .ok m') : m'.exports = m.exports ++ [name] := by
  simp only [addExport] at h
  split at h <;> cases h
  rfl

theorem requests_addExport {m m' : Interface} {t : Token} {name : String}
    (h : m.addExport t name = .ok m') :
    m'.requests = m.requests ∧ m'.starExports = m.starExports := by
  simp only [addExport] at h
  split at h <;> cases h
  exact ⟨rfl, rfl⟩

end Interface

/-- The text that a string token stands for: what is between its quotes, escapes resolved. -/
def Token.stringValue (t : Token) : String :=
  String.ofList (unescape (t.text.toList.drop 1).dropLast)

end Esm
