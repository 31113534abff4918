import CommentStyle.CommandLine.Run

/-!
# The program

Reads what a run may look at, runs it, and prints what it printed.
-/

open CommentStyle in
/-- Adds what is at a place of the file system. -/
def readEntry (files : Files) (place : Path.Place) : IO Files := do
  let found (entry : Entry) : Files := { files with entries := files.entries ++ [(place, entry)] }
  try
    let octets ← IO.FS.readBinFile (Path.ofPlace place).text
    return found (.file octets.toList)
  catch
    | .noFileOrDirectory .. => return files
    | .permissionDenied .. => return { found (.file []) with closed := place :: files.closed }
    | _ => return found .directory

open CommentStyle in
def main (args : List String) : IO UInt32 := do
  let directory := (Path.ofString (← IO.currentDir).toString).parts
  let files ← (CommandLine.places directory args).foldlM readEntry { workingDirectory := directory }
  let env : CommandLine.Environment :=
    { files := { files with entries := files.entries ++ [(directory, .directory)] }
      explain := fun _ => "not a YAML document" }
  let run := CommandLine.run env { interpreter := "none", platform := "native" } args
  let outcome := run.outcome
  for record in outcome.log do
    IO.eprintln (record.level.name ++ " " ++ record.message)
  IO.print outcome.out
  IO.eprint outcome.err
  if let some escaped := outcome.escaped then
    IO.eprintln (escaped.message env.explain)
  return outcome.exit.toUInt32
