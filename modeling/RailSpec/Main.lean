import RailSpec.CommandLine.Run
import RailSpec.SchemaText

/-!
The command. It looks at the files that a run depends on, lets the run work on what it saw, and then
makes the changes. As a run shows only by its changes which files it writes, it is run once to learn
where to look.
-/

namespace RailSpec.CommandLine

open Disk (Place Path Entry Tree)

/-- What the system has at a place, if it can be read. -/
def observe (place : Place) : IO (Option Entry) := do
  try
    return some (.file (← IO.FS.readBinFile (Path.ofPlace place).toString))
  catch error =>
    match error with
    | .inappropriateType .. => return some .directory
    | _ => return none

/-- Adds to a tree what there is on the way to a place, up to where there is no directory any more.
-/
def observeWay (tree : Tree) (place : Place) : IO Tree := do
  let mut seen := tree
  for count in [1:place.length + 1] do
    let here := place.take count
    if (seen.found? here).isNone then
      match ← observe here with
      | some entry => seen := seen.put here entry
      | none => return seen
    if seen.found? here ≠ some .directory then return seen
  return seen

/-- Eight characters that make a temporary name unlike others. -/
def freshMark : IO String := do
  let number ← IO.rand 0 (Nat.pow 36 8 - 1)
  let digits := Nat.toDigits 36 (Nat.pow 36 8 + number)
  return String.ofList digits.tail

/-- Makes one change; a file takes its place in one step. -/
def makeChange (disk : Disk) (mark : String) (place : Place) (entry : Entry) : IO Unit := do
  let path := Path.ofPlace place
  match entry with
  | .directory => IO.FS.createDirAll path.toString
  | .file content =>
    let temporary := (disk.temporary path mark).toString
    IO.FS.writeBinFile temporary content
    try
      IO.FS.rename temporary path.toString
    catch error =>
      IO.FS.removeFile temporary
      throw error

/-- The time since a run began. -/
def clockText (milliseconds : Nat) : String :=
  let seconds := milliseconds / 1000
  let pair := fun number => String.ofList ((Nat.toDigits 10 (100 + number % 100)).tail)
  pair (seconds / 3600) ++ ":" ++ pair (seconds / 60 % 60) ++ ":" ++ pair (seconds % 60)

/-- Runs with accepted arguments and gives the exit status. -/
def perform (arguments : Arguments) : IO UInt32 := do
  let began ← IO.monoMsNow
  let here := (Path.ofString (toString (← IO.FS.realPath "."))).names
  let mark ← freshMark
  let reader := Reader.ofParser SchemaText.parse
  let mut disk : Disk := { tree := { }, here, marks := [mark] }
  for place in inputPlaces here arguments do
    disk := { disk with tree := ← observeWay disk.tree place }
  for (place, _) in disk.tree.changes (run reader disk arguments).1.tree do
    disk := { disk with tree := ← observeWay disk.tree place }
  let (after, ended) := run reader disk arguments
  for (place, entry) in disk.tree.changes after.tree do
    makeChange disk mark place entry
  match ended with
  | .error escape =>
    IO.eprintln escape.message
    return 1
  | .ok outcome =>
    let time := clockText ((← IO.monoMsNow) - began)
    IO.print outcome.shown.output
    IO.eprint (Log.text time arguments.verbosity outcome.shown.log)
    return UInt32.ofNat outcome.ending.status

end RailSpec.CommandLine

open RailSpec.CommandLine in
def main (texts : List String) : IO UInt32 := do
  match parse texts with
  | .ok arguments => perform arguments
  | .error .help =>
    IO.print helpText
    return 0
  | .error .version =>
    IO.print versionText
    return 0
  | .error (.refused refusal) =>
    IO.eprint (usageText ++ refusalText refusal)
    return 2
