import RailSpec.CommandLine.Arguments
import RailSpec.Report.Export
import RailSpec.Settings.File

/-!
A run of the command: settings, schema files, documents, and the files written for them. Nothing is
written if any schema file has an error.
-/

namespace RailSpec.CommandLine

open Disk (Path Place)

/-- How a run ended. -/
inductive Ending where
  | success
  | parseError
  | exportError
  | inputError
  deriving DecidableEq, Repr

def Ending.status : Ending → Nat
  | .success => 0
  | .parseError => 1
  | .exportError => 2
  | .inputError => 4

/-- What a run shows: its output and its log. -/
structure Shown where
  output : String := ""
  log : List Log.Line := []

structure Outcome where
  ending : Ending
  shown : Shown

def line (level : Log.Level) (message : String) : Log.Line :=
  ⟨level, .commandLine, message⟩

def Arguments.verbosity (arguments : Arguments) : Log.Verbosity :=
  if arguments.quiet then .quiet
  else if arguments.verbose = 0 then .normal
  else .talkative

/-- What an option is given as a value; nothing is an empty list, and so no valid setting. -/
def Given.toValue {α : Type} (ofGiven : α → Value) : Given α → Value
  | .value given => ofGiven given
  | .nothing => .list []

/-- The settings that are given on the command line. -/
def Arguments.overrides (arguments : Arguments) : Fields :=
  (arguments.namespaceName.map fun name => ("namespace", name.toValue .text)).toList
    ++ (arguments.timeLimit.map fun limit => ("fallback_timeout", limit.toValue .float)).toList

/-- The settings of a run: those of a file, if one with a name is given, under those of the command
line. -/
def settingsOf (disk : Disk) (arguments : Arguments) : Except Settings.Trouble Settings :=
  match arguments.config.filter (· ≠ "") with
  | none => Settings.accept [] arguments.overrides
  | some path =>
    match Settings.load disk (Path.ofString path) with
    | .error trouble => .error trouble
    | .ok mapping => Settings.accept mapping arguments.overrides

/-- Trouble with a settings file that ends the run in another way than by its own message: a fault
of the disk that does not say that something is missing. -/
def escapeOf : Settings.Trouble → Option Escape
  | .file (.file fault) =>
    match fault with
    | .nullByte | .step .missing _ => none
    | other => some (.file other)
  | _ => none

/-- The schema files that there are, and a warning for every other. -/
def schemaPaths (disk : Disk) (root : Path) : List String →
    Except Disk.Fault (List Path × List Log.Line)
  | [] => .ok ([], [])
  | entry :: rest => do
    let path := root.join (Path.ofString entry)
    let isFile ← disk.isFile path
    let (paths, lines) ← schemaPaths disk root rest
    if isFile then return (Path.ofPlace (path.resolve disk.here) :: paths, lines)
    else return (paths, line .warning ("Skipping missing schema file: " ++ entry) :: lines)

/-- A document as a dry run shows it. -/
def dryText (file : SchemaFile) (document : TypeSpec.Document) : String :=
  "\n// Schema: " ++ file.relative ++ "\n// File: " ++ document.name ++ "\n" ++ document.content
    ++ "\n"

def diagnosticLines (report : Report) : List Log.Line :=
  report.warnings.map (line .warning) ++ report.errors.map (line .error)

/-- What is done with a report. -/
def finish (disk : Disk) (arguments : Arguments) (report : Report) (log : List Log.Line) :
    Disk × Except Escape Outcome :=
  if report.parseFailed then
    (disk, .ok ⟨.parseError,
      { log := log ++ [line .error "Generation aborted due to parser errors."] }⟩)
  else if report.documents.isEmpty then
    (disk, .ok ⟨.success,
      { log := log ++
          [line .warning "No tables or enums were detected in the given schema files."] }⟩)
  else if arguments.dryRun then
    (disk, .ok ⟨.success,
      { output := String.join (report.documents.map fun (file, document) => dryText file document)
        log := log ++ [line .info "Dry-run mode: files will not be written to disk."] }⟩)
  else
    match arguments.output.value?.map fun output =>
        report.exportAll disk (Path.ofString output) arguments.force with
    | none => (disk, .error .noPath)
    | some (disk, .error escape) => (disk, .error escape)
    | some (disk, .ok (_, report, lines)) =>
      (disk, .ok ⟨if report.exportErrors.isEmpty then .success else .exportError,
        { output := if arguments.quiet then "" else report.summary ++ "\n"
          log := log ++ lines }⟩)

/-- The last line of a log. -/
def endingLine (ending : Ending) : Log.Line :=
  match ending with
  | .success => line .info "Generation completed successfully."
  | other => line .error ("Generation failed with exit code " ++ toString other.status ++ ".")

def Outcome.ended (outcome : Outcome) : Outcome :=
  { outcome with shown.log := outcome.shown.log ++ [endingLine outcome.ending] }

/-- The lines about what a run works on. -/
def startLines (root : Path) (paths : List Path) (settings : Settings) : List Log.Line := [
  line .info ("Project root: " ++ root.toString),
  line .info ("Schemas:      " ++ Text.joined ", " (paths.map Path.toString)),
  line .info ("Namespace:    " ++ settings.namespaceName.getD "None")]

/-- Reads schema files and does with the report what the arguments ask for. -/
def generate (generator : Generator) (disk : Disk) (arguments : Arguments) (root : Path)
    (paths : List Path) (log : List Log.Line) : Disk × Except Escape Outcome :=
  match generator.generateFiles disk paths root with
  | .error escape => (disk, .error escape)
  | .ok (report, lines) =>
    let opening := log ++ startLines root paths generator.settings
    let started := opening ++ lines ++ diagnosticLines report
    match finish disk arguments report started with
    | (disk, .ok outcome) => (disk, .ok outcome.ended)
    | (disk, .error escape) => (disk, .error escape)

def inputError (log : List Log.Line) : Outcome :=
  ⟨.inputError, { log }⟩

/-- Looks for the schema files and generates from those that there are. -/
def runFiles (reader : Reader) (disk : Disk) (arguments : Arguments) (root : Path)
    (settings : Settings) : Disk × Except Escape Outcome :=
  match schemaPaths disk root arguments.schemas with
  | .error fault => (disk, .error (.file fault))
  | .ok ([], lines) =>
    (disk, .ok (inputError (lines ++ [line .error
      "No schema files were found. Check the paths given on the command line."])))
  | .ok (paths, lines) => generate ⟨reader, settings⟩ disk arguments root paths lines

/-- A run below a project root. -/
def runIn (reader : Reader) (disk : Disk) (arguments : Arguments) (projectRoot : String) :
    Disk × Except Escape Outcome :=
  match disk.resolve (Path.ofString projectRoot) with
  | .error fault => (disk, .error (.file fault))
  | .ok place =>
    let root := Path.ofPlace place
    match disk.isDirectory root with
    | .error fault => (disk, .error (.file fault))
    | .ok false =>
      (disk, .ok (inputError [line .error ("Project root not found: " ++ projectRoot)]))
    | .ok true =>
      match settingsOf disk arguments with
      | .ok settings => runFiles reader disk arguments root settings
      | .error trouble =>
        match escapeOf trouble with
        | some escape => (disk, .error escape)
        | none =>
          (disk, .ok (inputError [line .error ("Invalid configuration: " ++ trouble.message)]))

/-- A run with arguments that were accepted. -/
def run (reader : Reader) (disk : Disk) (arguments : Arguments) : Disk × Except Escape Outcome :=
  match arguments.projectRoot with
  | .value root => runIn reader disk arguments root
  | .nothing => (disk, .error .noPath)

/-- The places on the way along a path, each followed by the names alone. -/
def waypoints (here : Place) (path : Path) : List Place :=
  (List.range (path.names.length + 1)).map fun count =>
    Path.resolve here { path with names := path.names.take count }

/-- The places that a run looks at before it writes anything. -/
def inputPlaces (here : Place) (arguments : Arguments) : List Place :=
  let root := (Path.ofString (arguments.projectRoot.value?.getD "")).resolve here
  let config := (arguments.config.filter (· ≠ "")).toList.map Path.ofString
  let schemas := arguments.schemas.map fun entry => (Path.ofPlace root).join (Path.ofString entry)
  here :: root :: (config ++ schemas).flatMap (waypoints here)

/-! What is printed without a run. -/

def versionText : String := "TSPGen v0.1.0\n"

def usageText : String :=
  "usage: tspgen [-h] [--version] [-p DIR] [-o DIR] [-c PATH] [-n NAME]\n"
    ++ "              [--fallback-timeout SECONDS] [-d] [-f] [-v] [-q]\n"
    ++ "              SCHEMA [SCHEMA ...]\n"

def helpText : String :=
  usageText ++ "\nTSPGen — Rails schema to TypeSpec generator.\n"

def refusalText (refusal : Refusal) : String :=
  "tspgen: error: " ++ refusal.message ++ "\n"

end RailSpec.CommandLine
