-- SUMMARY: Syntax errors, their places and their wording.
import Esm.Interface.Analysis
import Esm.Text.Quoted
import Esm.Token.Scanner

/-!
# Syntax errors

A source is refused for a lexical fault or for a fault in its declarations. Readers find faults at
byte offsets; an error names the line and column.
-/

namespace Esm

open Text

def Lexeme.Fault.message : Lexeme.Fault → String
  | .unexpectedCharacter c => "unexpected character " ++ quoteChar c
  | .unterminatedComment => "unterminated comment"
  | .unterminatedString => "unterminated string literal"
  | .unterminatedTemplate => "unterminated template literal"
  | .unterminatedRegExp => "unterminated regular expression literal"

def Interface.Fault.message : Interface.Fault → String
  | .unexpectedToken text => "unexpected token '" ++ text ++ "'"
  | .unexpectedInImport => "unexpected token in import declaration"
  | .unexpectedAfterExport text => "unexpected token '" ++ text ++ "' after export"
  | .unexpectedInExportList text => "unexpected token '" ++ text ++ "' in export list"
  | .unexpectedInBinding text => "unexpected token '" ++ text ++ "' in declaration"
  | .expectedWord word => "expected '" ++ word ++ "'"
  | .expectedFromClause => "expected 'from' clause"
  | .duplicateExport name => "duplicate exported name '" ++ name ++ "'"
  | .neverClosed opener => "unexpected end of input, '" ++ opener ++ "' is never closed"
  | .endAfter keyword => "unexpected end of input after '" ++ keyword ++ "'"
  | .endOfInput => "unexpected end of input"

/-- Why a source is refused. -/
inductive SyntaxError.Cause where
  | lexical (fault : Lexeme.Fault)
  | declaration (fault : Interface.Fault)
deriving DecidableEq, Repr

/-- Why and where a source is refused. -/
structure SyntaxError where
  cause : SyntaxError.Cause
  position : Position
deriving DecidableEq, Repr

namespace SyntaxError

def Cause.message : Cause → String
  | .lexical fault => fault.message
  | .declaration fault => fault.message

/-- The cause and its line and column. -/
def message (e : SyntaxError) : String :=
  e.cause.message ++ " at " ++ toString e.position.line ++ ":" ++ toString e.position.column

/-- A lexical fault of a source. -/
def lexical (source : String) (failure : Scanner.Failure) : SyntaxError :=
  ⟨.lexical failure.cause, Position.ofOffset source failure.offset⟩

/-- A declaration fault of a source. -/
def declaration (source : String) (failure : Interface.Failure) : SyntaxError :=
  ⟨.declaration failure.cause, Position.ofOffset source failure.offset⟩

end SyntaxError

end Esm
