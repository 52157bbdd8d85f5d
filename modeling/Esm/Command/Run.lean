-- SUMMARY: The program that runs modules and shows what specifiers resolve to.
import Esm.Command.Arguments
import Esm.Command.Failure
import Esm.Environment

/-!
# Running modules

`tjs run SCRIPT` starts a runtime and runs an entry module; it prints nothing unless that fails.
`tjs resolve SPECIFIER [--from MODULE]` prints the location that a specifier means and marks one
that no file was found for. The search path comes from `--library-path`, or else from the
environment.
-/

namespace Esm.Command

/-- What to do. -/
inductive Action where
  | run (script : String)
  | resolve (specifier referrer : String)
deriving DecidableEq, Repr

/-- A command line that has been understood. -/
structure Invocation where
  libraryPath : Option String
  action : Action
deriving DecidableEq, Repr

namespace Invocation

/-- The options that may stand before and behind the command. -/
def globalOptions : Grammar := ⟨["--verbose"], ["--library-path"]⟩

/-- The module that a specifier is resolved for if none is given. -/
def defaultReferrer : String := "./main.js"

/-- The action of a command with its arguments. -/
def actionOf (command : String) (items : List Item) : Option Action :=
  match command, positionals items with
  | "run", [script] => some (.run script)
  | "resolve", [specifier] =>
    some (.resolve specifier ((optionValue items "--from").getD defaultReferrer))
  | _, _ => none

/-- Read a command line. The search path given behind the command counts more. -/
def ofArguments (args : List String) : Option Invocation := do
  let (before, command, rest) ← itemsBeforeCommand globalOptions args
  let grammar : Grammar :=
    if command = "resolve" then { globalOptions with options := ["--library-path", "--from"] }
    else globalOptions
  let behind ← items grammar rest
  let action ← actionOf command behind
  if eachOnce before && eachOnce behind then
    some ⟨(optionValue behind "--library-path").or (optionValue before "--library-path"), action⟩
  else none

end Invocation

/-- Start a runtime and run an entry module. -/
def runScript (files : FileTree) (loader : Loader) (script : String) : Option Result :=
  let fail (texts : List String) : Result := ⟨1, "", failureChain texts, files⟩
  match Environment.start loader .embedded files with
  | none => none
  | some (.error e) =>
    let mode := Startup.embedded.mode.name
    some (fail (("failed to bootstrap runtime (" ++ mode ++ " mode)") :: e.chain))
  | some (.ok env) =>
    match env.runMain files script with
    | none => none
    | some (.error e, _) => some (fail (("failed to run '" ++ script ++ "'") :: e.chain))
    | some (.ok _, _) => some ⟨0, "", "", files⟩

/-- The line that shows a resolution. -/
def resolutionLine : Resolution → String
  | .resolved path => path ++ "\n"
  | .unchanged name => name ++ " " ++ dimmed "(unresolved)" ++ "\n"

/-- The loader of an invocation, given the search path of the environment. -/
def Invocation.loader (invocation : Invocation) (environment : Option String) : Loader :=
  ⟨Library.rootsOf (invocation.libraryPath.or environment), .offline⟩

/-- The program, given the search path of the environment and the arguments. There is no result if
imports nest too deep. -/
def tjs (files : FileTree) (environment : Option String) (args : List String) : Option Result :=
  match Invocation.ofArguments args with
  | none => some ⟨2, "", "", files⟩
  | some invocation =>
    let loader := invocation.loader environment
    match invocation.action with
    | .run script => runScript files loader script
    | .resolve specifier referrer =>
      some ⟨0, resolutionLine (loader.resolve files specifier referrer), "", files⟩

/-- The paths that the program may look at, as far as the files known so far tell. -/
def tjsConsults (files : FileTree) (environment : Option String) (args : List String) :
    List String :=
  match Invocation.ofArguments args with
  | none => []
  | some invocation =>
    let loader := invocation.loader environment
    match invocation.action with
    | .resolve specifier referrer =>
      (Location.stems loader.roots specifier referrer).flatMap Location.candidates
    | .run script =>
      match Environment.start loader .embedded files with
      | some (.ok env) =>
        match env.runMain files script with
        | some (_, env) => env.consulted script
        | none => []
      | _ => []

end Esm.Command
