-- SUMMARY: The program that compiles a module to its serialized form.
import Esm.Command.Arguments
import Esm.Command.Failure
import Esm.FileTree.Change
import Esm.LoadError
import Esm.Text.Utf8

/-!
# Compiling modules

`tjs-bootstrap-compile INPUT OUTPUT [OUTPUT_SWAPPED] [MODULE_NAME]` compiles a module and writes its
serialized form in this machine's byte order, and if asked in the other one too. Nothing is written
before the module has been compiled.
-/

namespace Esm.Command

def compileUsage : String :=
  "usage: tjs-bootstrap-compile INPUT OUTPUT [OUTPUT_SWAPPED] [MODULE_NAME]"

/-- What to compile and where to. -/
structure CompileRequest where
  input : String
  output : String
  swapped : Option String
  name : Option String
deriving DecidableEq, Repr

/-- Read a command line. No path may be empty. -/
def CompileRequest.ofArguments (args : List String) : Option CompileRequest := do
  let items ← items ⟨["--verbose"], []⟩ args
  let request : CompileRequest ←
    match positionals items with
    | [input, output] => some ⟨input, output, none, none⟩
    | [input, output, swapped] => some ⟨input, output, some swapped, none⟩
    | [input, output, swapped, name] => some ⟨input, output, some swapped, some name⟩
    | _ => none
  let paths := request.input :: request.output :: request.swapped.toList
  if eachOnce items && !paths.contains "" then some request else none

/-- Why an input file cannot be mapped into memory. -/
inductive InputFault where
  | opening (path : String) (cause : FileError)
  | empty (path : String)
  | mapping (path : String) (cause : FileError)
deriving DecidableEq, Repr

def InputFault.message : InputFault → String
  | .opening path cause => "Failed to open file '" ++ path ++ "': " ++ cause.message
  | .empty path => "Cannot map empty file '" ++ path ++ "'"
  | .mapping path cause => "Failed to map file '" ++ path ++ "' into memory: " ++ cause.message

/-- Why a compilation fails. -/
inductive CompileFailure where
  | input (path : String) (fault : InputFault)
  | notUtf8 (fault : Text.Utf8Fault)
  | refused (cause : SyntaxError)
  | openOutput (cause : FileError)
  | writeOutput (cause : FileError)
  | openSwapped (cause : FileError)
  | writeSwapped (cause : FileError)
deriving DecidableEq, Repr

def CompileFailure.message : CompileFailure → String
  | .input path fault => "Failed to open input file: " ++ path ++ "\n  " ++ fault.message
  | .notUtf8 fault =>
    "Exception occurred parsing script.\n  input is not valid UTF-8: " ++ fault.message
  | .refused cause => "Exception occurred parsing script.\n  " ++ cause.report
  | .openOutput cause => "Failed to open output file: " ++ cause.message
  | .writeOutput cause => "Failed to write bytecode to file: " ++ cause.message
  | .openSwapped cause => "Failed to open bswap output file: " ++ cause.message
  | .writeSwapped cause => "Failed to write bswap bytecode to file: " ++ cause.message

/-- The bytes of an input file, which may not be empty. -/
def mapInput (files : FileTree) (path : String) : Except InputFault (List UInt8) :=
  match files.find path with
  | .error e => .error (.opening path e)
  | .ok (_, .file bytes) => if bytes.isEmpty then .error (.empty path) else .ok bytes
  | .ok (_, .locked) => .error (.opening path .permissionDenied)
  | .ok (_, .device _) => .error (.empty path)
  | .ok (_, _) => .error (.mapping path .noSuchDevice)

/-- Write an output file. What could be done of it stays done. -/
def writeOutput (files : FileTree) (path : String) (bytes : List UInt8)
    (opening writing : FileError → CompileFailure) : Except CompileFailure Unit × FileTree :=
  match files.create path with
  | .error e => (.error (opening e), files)
  | .ok (files, location, hasRoom) =>
    if hasRoom then (.ok (), files.fill location bytes) else (.error (writing .noSpace), files)

/-- Read and compile the input. -/
def compileInput (files : FileTree) (request : CompileRequest) : Except CompileFailure Module := do
  let bytes ← (mapInput files request.input).mapError (.input request.input)
  let source ← (Text.decodeUtf8 bytes).mapError .notUtf8
  (Module.compile source (request.name.getD request.input)).mapError .refused

/-- Compile the input and write the outputs. -/
def compileFiles (files : FileTree) (request : CompileRequest) :
    Except CompileFailure Unit × FileTree :=
  match compileInput files request with
  | .error e => (.error e, files)
  | .ok m =>
    match writeOutput files request.output (m.encode .native) .openOutput .writeOutput with
    | (.error e, files) => (.error e, files)
    | (.ok (), files) =>
      match request.swapped with
      | none => (.ok (), files)
      | some path => writeOutput files path (m.encode .swapped) .openSwapped .writeSwapped

/-- The program. -/
def bootstrapCompile (files : FileTree) (args : List String) : Result :=
  match CompileRequest.ofArguments args with
  | none => ⟨1, "", compileUsage, files⟩
  | some request =>
    match compileFiles files request with
    | (.ok (), files) => ⟨0, "", "", files⟩
    | (.error e, files) => ⟨255, "", failureLine e.message, files⟩

/-- The paths that the program looks at. -/
def compileConsults (args : List String) : List String :=
  match CompileRequest.ofArguments args with
  | none => []
  | some request => request.input :: request.output :: request.swapped.toList

end Esm.Command
