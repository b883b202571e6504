import Placard.CommandLine.Run

/-!
# The program

Looks up what the arguments name, runs the job, and prints its answer.
-/

namespace Placard.CommandLine

/-- The system's words for a failure to read, with its number for it. The number
may come negated, as a word. -/
def readFailure : IO.Error → String
  | .noFileOrDirectory .. => "No such file or directory (os error 2)"
  | .permissionDenied .. => "Permission denied (os error 13)"
  | .inappropriateType _ code _ =>
    if code = 20 ∨ code = -20 then "Not a directory (os error 20)"
    else "Is a directory (os error 21)"
  | e => toString e

/-- The text of a file, or why it cannot be read. -/
def readText (path : String) : IO (Except String String) := do
  try
    return .ok (← IO.FS.readFile path)
  catch e =>
    return .error (readFailure e)

/-- The files of a folder; only those that may hold a template are read. -/
def readFolder (path : String) : IO Entry := do
  try
    let entries ← (IO.FS.DirEntry.mk path "").root.readDir
    let files ← entries.toList.mapM fun e => do
      if Library.isTemplateFile e.fileName then
        return (e.fileName, ← readText (path ++ "/" ++ e.fileName))
      else return (e.fileName, .ok "")
    return .folder (.ofList files)
  catch e =>
    return .unreadable (readFailure e)

/-- What there is under a path. -/
def lookUp (path : String) : IO Entry := do
  let place := (IO.FS.DirEntry.mk path "").root
  if ← place.isDir then readFolder path
  else
    match ← readText path with
    | .ok text => return .file text
    | .error reason =>
      if ← place.pathExists then return .unreadable reason
      else return .missing reason

/-- What is told of arguments that are not proper. -/
def usage : String :=
  "usage: [--config FILE] templates | validate | compile | parse | project " ++
    "[OPTIONS]"

end Placard.CommandLine

open Placard.CommandLine in
/-- Runs the job that the arguments ask for. -/
def main (args : List String) : IO UInt32 := do
  match Invocation.ofArguments? args with
  | none =>
    IO.eprintln usage
    return Outcome.misused.exitCode
  | some invocation =>
    let entries ← invocation.paths.mapM fun p => return (p, ← lookUp p)
    let found := Placard.Table.ofList entries
    let outcome := invocation.run fun p =>
      (found.get? p).getD (.missing "No such file or directory (os error 2)")
    IO.print outcome.text
    return outcome.exitCode
