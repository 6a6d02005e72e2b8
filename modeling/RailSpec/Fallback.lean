import RailSpec.Disk.File
import RailSpec.Reader
import RailSpec.Settings

/-!
The fallback parser: another program that is given a schema's text and prints one JSON report of
it. All that can go wrong with it becomes diagnostics. If it cannot be run or its output is no
report, nothing of the output counts; a failed exit alone leaves the report as it is.
-/

namespace RailSpec

/-- The program to run, the seconds that it may take, and why the first parser could not be used. -/
structure Fallback where
  command : List String
  timeLimit : Option Float := some 60
  reason : Option String := none

namespace Fallback

/-- How a run of the program went. Death by a signal is a negative status. What it says beside its
output, the noise, must be UTF-8 too. -/
inductive Outcome where
  | timedOut (limit : Float)
  | notStarted (fault : Disk.Fault)
  | finished (output : ByteArray) (status : Int) (noise : ByteArray := ByteArray.empty)

/-- A reason with something in it. -/
def givenReason (fallback : Fallback) : Option String :=
  fallback.reason.filter (· ≠ "")

/-- The warning that stands in every report. -/
def usageWarning (fallback : Fallback) : String :=
  match fallback.givenReason with
  | some reason =>
    "Used the Ruby Ripper fallback parser because the tree-sitter Ruby parser could not be loaded: "
      ++ reason
  | none =>
    "Used the Ruby Ripper fallback parser because the tree-sitter Ruby parser is not available."

/-- The warning for a program that did not run through. -/
def launchWarning (fallback : Fallback) : String :=
  match fallback.givenReason with
  | some reason =>
    "The Ruby fallback parser failed after the tree-sitter Ruby parser could not be loaded: "
      ++ reason
  | none => "Failed to run the Ruby fallback parser."

/-- The warning for output that is no report. -/
def outputWarning (fallback : Fallback) : String :=
  match fallback.givenReason with
  | some reason =>
    "Could not interpret the Ruby fallback output after the tree-sitter Ruby parser could not be "
      ++ "loaded: " ++ reason
  | none => "Could not interpret the Ruby fallback output."

def timeoutMessage (limit : Float) : String :=
  "Ruby fallback parser timed out after " ++ Number.limitFloat limit ++ " seconds."

def statusMessage (status : Int) : String :=
  "Ruby fallback parser exited with status " ++ toString status ++ "."

def kindMessage (kind : String) : String :=
  "Expected a JSON object from the Ruby fallback, got " ++ kind ++ "."

/-- The text of a report in a program's output; no output is an empty report. -/
def reportText (output : String) : String :=
  let text := Text.strip (String.ofList (Text.unifyLineEnds output.toList))
  if text = "" then "\x7b\x7d" else text

/-- The schema of a report, with the warning that every report has and an error for a failed exit.
-/
def schemaOfReport (fallback : Fallback) (fields : Fields) (status : Int) :
    Except Number.DigitFault Schema := do
  let warnings ← Schema.messagesEach (Schema.payloadList fields "warnings")
  let errors ← Schema.messagesEach (Schema.payloadList fields "errors")
  let field := fun name => (Fields.value? fields name).getD .null
  return ⟨Schema.decodeTables (field "tables"), Schema.decodeEnums (field "enums"),
    ⟨warnings ++ [fallback.usageWarning],
      errors ++ if status = 0 then [] else [statusMessage status]⟩⟩

/-- The schema of what a program printed. Only an integer with too many digits is no diagnostic. -/
def schemaOfOutput (fallback : Fallback) (output : String) (status : Int) :
    Except Number.DigitFault Schema :=
  match Json.parse (reportText output) with
  | .error (.digits fault) => .error fault
  | .error fault => .ok (Schema.failed [fault.message] [fallback.outputWarning])
  | .ok (.mapping fields) => fallback.schemaOfReport fields status
  | .ok value => .ok (Schema.failed [kindMessage value.kind] [fallback.outputWarning])

/-- The schema that a run of the program gives. -/
def schemaOfRun (fallback : Fallback) : Outcome → Except Number.DigitFault Schema
  | .timedOut limit => .ok (Schema.failed [timeoutMessage limit] [fallback.launchWarning])
  | .notStarted fault => .ok (Schema.failed [fault.message] [fallback.launchWarning])
  | .finished output status noise =>
    match Text.Utf8.decode output, Text.Utf8.decode noise with
    | .error fault, _ | .ok _, .error fault =>
      .ok (Schema.failed [fault.message] [fallback.launchWarning])
    | .ok text, .ok _ => fallback.schemaOfOutput text status

/-- Reads a text by giving it to a program. -/
def reader (fallback : Fallback) (run : List String → String → Outcome) : Reader := fun text =>
  (fallback.schemaOfRun (run fallback.command text)).mapError fun fault =>
    .declaration (.digits fault)

/-- Why a program cannot be started, as far as its path says: there is nothing, or it is no file. A
name without slashes is looked up in other directories, and an empty one names these directories.
-/
def launchFault? (disk : Disk) (command : List String) : Option Disk.Fault :=
  match command with
  | [] => none
  | program :: _ =>
    if command.any fun word => word.toList.contains '\x00' then some .nullByte
    else if program = "" || program = "." || program = ".." then some (.step .denied program)
    else if !program.toList.contains '/' then
      let tooLong := Disk.Tree.nameLimit < program.utf8ByteSize
      some (.step (if tooLong then .nameTooLong else .missing) program)
    else
      match disk.tree.status disk.here (Disk.Path.ofString program) with
      | .ok .directory => some (.step .denied program)
      | .ok (.file _) => none
      | .error errno => some (.step errno program)

end Fallback

/-- What came of trying to load the first parser: it can be used, or why not. -/
inductive Probe where
  | available
  | unavailable (reason : String)
  deriving DecidableEq, Repr

namespace Probe

/-- The parser that is used. -/
inductive Choice where
  | primary
  | fallback (fallback : Fallback)

def Choice.name : Choice → String
  | .primary => "tree-sitter"
  | .fallback _ => "ruby-fallback"

/-- The reason that an error gives: its kind and its message. -/
def reasonOf (kind message : String) : String :=
  kind ++ ": " ++ message

/-- The first parser if it can be used, else the fallback that the settings ask for. -/
def choose (probe : Probe) (settings : Settings) (bundled : List String) : Choice :=
  match probe with
  | .available => .primary
  | .unavailable reason =>
    .fallback ⟨settings.command.getD bundled, settings.timeLimit, some reason⟩

end Probe

end RailSpec
