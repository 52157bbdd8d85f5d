-- SUMMARY: The command line on the files of this machine.
import Esm.Command.Compile
import Esm.Command.Run

/-!
# The command line

The programs work on a file tree in memory. This module fills it from the machine's files: it asks a
program which paths it may look at, takes in what is there, and asks again until nothing new comes
up. Afterwards it writes the files that the program has changed.
-/

namespace Esm.Shell

/-- Take in what stands along a path, symbolic links included. -/
def observe (files : FileTree) (dir : Location) : List Path.Part → IO FileTree
  | [] => pure files
  | .root :: rest => observe files [] rest
  | .here :: rest => observe files dir rest
  | .up :: rest => observe files dir.dropLast rest
  | .name name :: rest => do
    let location := dir ++ [name]
    let path := FileTree.pathOf location
    match ← (IO.FS.realPath path).toBaseIO with
    | .error _ => pure files
    | .ok real =>
      let reached := (FileTree.steps (toString real)).filterMap fun
        | .name name => some name
        | _ => none
      let files := if reached = location then files else files.set location (.link (toString real))
      match files.lookup reached with
      | some _ => observe files reached rest
      | none =>
        let files := ((files.makeDirectories (FileTree.pathOf reached.dropLast)).map Prod.fst
          |>.toOption).getD files
        match ← (IO.FS.readBinFile (toString real)).toBaseIO with
        | .ok bytes => observe (files.set reached (.file bytes.data.toList)) reached rest
        | .error (.permissionDenied ..) => observe (files.set reached .locked) reached rest
        | .error _ => observe (files.set reached .directory) reached rest

/-- Take in the paths that `consults` names, until there are no new ones. -/
partial def gather (consults : FileTree → List String) (known : List String) (files : FileTree) :
    IO FileTree := do
  let paths := (consults files).filter fun path => !known.contains path
  if paths.isEmpty then pure files
  else
    let mut files := files
    for path in paths do
      files ← observe files files.current (FileTree.steps path)
    gather consults (known ++ paths) files

/-- Write the files that differ from what they were. -/
def save (before after : FileTree) : IO Unit := do
  for (location, entry) in after.entries do
    match entry with
    | .file bytes =>
      if before.lookup location != some entry then
        IO.FS.writeBinFile (FileTree.pathOf location) ⟨bytes.toArray⟩
    | _ => pure ()

end Esm.Shell

open Esm Shell in
/-- Runs `tjs`, or `tjs-bootstrap-compile` if the program is called by that name. -/
def main (args : List String) : IO UInt32 := do
  let current ← IO.FS.realPath "."
  let files := ((FileTree.bare.enter (toString current)).toOption).getD .bare
  let program := Path.fileName (toString (← IO.appPath))
  let environment ← IO.getEnv "TJS_LIBRARY_PATH"
  let (before, result) ←
    if program = some "tjs-bootstrap-compile" then do
      let files ← gather (fun _ => Command.compileConsults args) [] files
      pure (files, some (Command.bootstrapCompile files args))
    else do
      let files ← gather (fun files => Command.tjsConsults files environment args) [] files
      pure (files, Command.tjs files environment args)
  match result with
  | none =>
    IO.eprintln "imports nest too deep"
    pure 134
  | some result =>
    save before result.files
    IO.print result.stdout
    IO.eprint result.stderr
    pure result.status.toUInt32
