-- SUMMARY: Why a module cannot be loaded, and the wording of each cause.
import Esm.Encoding.Reader
import Esm.FileTree.Basic
import Esm.Registry.Link

/-!
# Load errors

Everything that can go wrong between a module's location and its being linked. Some causes have a
cause of their own; a report of the whole chain repeats its text.
-/

namespace Esm

/-- A syntax error as it is reported. -/
def SyntaxError.report (e : SyntaxError) : String := "SyntaxError: " ++ e.message

/-- A malformed serialized module as it is reported. -/
def Encoding.Fault.report (fault : Encoding.Fault) : String :=
  "invalid bytecode: " ++ fault.message

/-- The use of a handle that was never issued, as it is reported. -/
def unknownHandleReport (h : Handle) : String :=
  "TypeError: unknown module handle " ++ toString h

/-- Why a resource on the web cannot be fetched. -/
inductive FetchFailure where
  /-- The answer had a status other than 200. -/
  | status (code : Nat)
  /-- There was no answer. -/
  | transport (text : String)
deriving DecidableEq, Repr

def FetchFailure.message : FetchFailure → String
  | .status code => "code: " ++ toString code
  | .transport text => text

/-- What is wrong with a built-in serialized module. -/
inductive BlobFault where
  | malformed (fault : Encoding.Fault)
  /-- It holds the module of another name. -/
  | otherModule (name : String)
deriving DecidableEq, Repr

def BlobFault.report : BlobFault → String
  | .malformed fault => fault.report
  | .otherModule name => "invalid bytecode: blob holds module '" ++ name ++ "'"

/-- Why a module cannot be loaded. -/
inductive LoadError where
  | notFound (location : String)
  | fetch (url : String) (failure : FetchFailure)
  | compile (name : String) (cause : SyntaxError)
  | bytecode (name : String) (cause : BlobFault)
  | realPath (path : String) (cause : FileError)
  | io (path : String) (cause : FileError)
  | invalidSource (location reason : String)
  | unsupported (name reason : String)
  | unknownHandle (h : Handle)
deriving DecidableEq, Repr

namespace LoadError

/-- The error for a file that cannot be used. A missing file is a module not found. -/
def ofFile (path : String) : FileError → LoadError
  | .notFound => .notFound path
  | e => .io path e

/-- The error for a module that cannot be linked. -/
def ofLink : LinkError LoadError → LoadError
  | .unknownHandle h => .unknownHandle h
  | .host cause => cause

/-- The cause behind an error, if it has one of its own. -/
def cause : LoadError → Option String
  | .compile _ cause => some cause.report
  | .bytecode _ cause => some cause.report
  | .realPath _ cause => some cause.message
  | .io _ cause => some cause.message
  | _ => none

def message : LoadError → String
  | .notFound location => "could not load '" ++ location ++ "'"
  | .fetch url failure => "could not load '" ++ url ++ "' " ++ failure.message
  | .compile name cause => name ++ ": " ++ cause.report
  | .bytecode name cause => name ++ ": " ++ cause.report
  | .realPath path cause => "realpath failure for '" ++ path ++ "': " ++ cause.message
  | .io path cause => path ++ ": " ++ cause.message
  | .invalidSource location reason =>
    "invalid module source '" ++ location ++ "': " ++ reason
  | .unsupported name reason => "cannot import '" ++ name ++ "': " ++ reason
  | .unknownHandle h => unknownHandleReport h

/-- The message and the cause behind it. -/
def chain (e : LoadError) : List String := e.message :: e.cause.toList

end LoadError

end Esm
