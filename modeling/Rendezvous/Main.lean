/-
Rendezvous/Main.lean

The command line.

Reads the arguments, the environment and the files that the arguments name, and
prints the settings they come to.
-/
import Rendezvous.Cli.Report

open Rendezvous

/-- The variables that are set. -/
def readEnvironment : IO (Table String) := do
  let found ← Cli.environmentNames.filterMapM fun name => do
    return (← IO.getEnv name).map fun value => (name, value)
  return Table.ofList found

/-- The text of a file. -/
def readTextFile (path : String) : IO (Except FileFault String) := do
  try
    let contents ← IO.FS.readBinFile path
    return match Text.decodeUtf8? contents.toList with
      | some s => .ok s
      | none => .error .notText
  catch
    | .inappropriateType .. => return .error .isADirectory
    | _ => return .error .notFound

/-- The files that are named. -/
def readNamedFiles (a : Cli.Arguments) : IO Cli.Files := do
  let found ← a.fileNames.mapM fun path => do return (path, ← readTextFile path)
  return fun path => (found.lookup path).getD (.error .notFound)

/-- Print the settings of a command line. -/
def main (words : List String) : IO UInt32 := do
  match Cli.Arguments.parse (← readEnvironment) words with
  | .error e =>
    if e.isAnswer then
      IO.println e.sentence
      return 0
    else
      IO.eprintln e.sentence
      return 2
  | .ok a =>
    match a.report (← readNamedFiles a) with
    | .ok t =>
      IO.println t.write
      return 0
    | .error e =>
      IO.eprintln e.message
      return 1
