import RailSpec.Generation
import RailSpec.Number.Decimal

/-!
Reports: what came of several schema files, and the summary of a whole run. Every warning and error
is marked with the file it belongs to.
-/

namespace RailSpec

/-- What came of one schema file. -/
structure SchemaFile where
  place : List String
  relative : String
  generation : Generation

/-- A step of a run and how long it took. -/
structure Metric where
  step : String
  succeeded : Bool
  seconds : Float
  detail : String

structure Report where
  projectRoot : String := ""
  outputDirectory : String := ""
  seconds : Float := 0
  files : List SchemaFile := []
  metrics : List Metric := []
  warnings : List String := []
  errors : List String := []
  exportErrors : List String := []
  writtenFiles : List String := []

namespace Report

def parseFailed (report : Report) : Bool :=
  !report.errors.isEmpty

def succeeded (report : Report) : Bool :=
  report.errors.isEmpty && report.exportErrors.isEmpty

/-- Every document with the file it came from. -/
def documents (report : Report) : List (SchemaFile × TypeSpec.Document) :=
  report.files.flatMap fun file => file.generation.documents.map fun document => (file, document)

/-- A diagnostic with the file it belongs to. -/
def marked (file : SchemaFile) (text : String) : String :=
  "[" ++ file.relative ++ "] " ++ text

def addFile (report : Report) (file : SchemaFile) : Report :=
  { report with
    files := report.files ++ [file]
    warnings := report.warnings ++ file.generation.diagnostics.warnings.map (marked file)
    errors := report.errors ++ file.generation.diagnostics.errors.map (marked file) }

def addMetric (report : Report) (metric : Metric) : Report :=
  { report with metrics := report.metrics ++ [metric] }

/-- A metric with its step in a column of 28 characters and its seconds in one of 7. -/
def metricLine (metric : Metric) : String :=
  let seconds := Number.fixedFloat 3 metric.seconds
  "    " ++ (if metric.succeeded then "✓" else "✗") ++ " " ++ metric.step
    ++ Text.padding 28 metric.step ++ " " ++ Text.padding 7 seconds ++ seconds ++ "s  "
    ++ metric.detail

def doubleRule : String :=
  String.ofList (List.replicate 60 '=')

def singleRule : String :=
  String.ofList (List.replicate 60 '─')

/-- The lines of a section with a title and a mark in front of every entry; none without entries. -/
def entryLines (title mark : String) (entries : List String) : List String :=
  if entries.isEmpty then []
  else
    singleRule :: ("  " ++ title ++ " (" ++ toString entries.length ++ "):")
      :: entries.map fun entry => "    " ++ mark ++ " " ++ entry

/-- A line with a caption, the rest of it in one column. -/
def captioned (caption value : String) : String :=
  "  " ++ caption ++ ":" ++ Text.padding 17 caption ++ value

def total (counts : List Nat) : Nat :=
  counts.foldr (· + ·) 0

def modelCount (report : Report) : Nat :=
  total (report.files.map fun file => file.generation.models.length)

def enumCount (report : Report) : Nat :=
  total (report.files.map fun file => file.generation.enums.length)

def headLines (report : Report) : List String :=
  [doubleRule, "  TSPGen — Generation Report", doubleRule,
    captioned "Status" (if report.succeeded then "✅ SUCCESS" else "❌ FAILED"),
    captioned "Project root" report.projectRoot]
    ++ (if report.outputDirectory = "" then [] else [captioned "Output" report.outputDirectory])
    ++ [captioned "Schema files" (toString report.files.length),
      captioned "Models" (toString report.modelCount),
      captioned "Enums" (toString report.enumCount),
      captioned "Files written" (toString report.writtenFiles.length),
      captioned "Total time" (Number.fixedFloat 3 report.seconds ++ "s"),
      singleRule]

def metricLines (report : Report) : List String :=
  if report.metrics.isEmpty then []
  else "  Pipeline Steps:" :: report.metrics.map metricLine

/-- The summary for a reader. -/
def summary (report : Report) : String :=
  Text.unlines (report.headLines ++ report.metricLines
    ++ entryLines "Warnings" "⚠" report.warnings
    ++ entryLines "Errors" "✗" report.errors
    ++ entryLines "Export Errors" "✗" report.exportErrors
    ++ [doubleRule])

end Report

end RailSpec
