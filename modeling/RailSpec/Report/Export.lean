import RailSpec.Report.Files

/-!
Export: every document of a report as a file. The directories under the output directory are those
of the schema files under the project's root. A document that cannot be written gives an error and
leaves the others alone.
-/

namespace RailSpec

open Disk (Path Place)

/-- Where documents go. -/
structure Destination where
  output : Place
  root : Place
  overwrite : Bool := false

/-- A document that was written. -/
structure FileRecord where
  relative : String
  absolute : String
  bytes : Nat
  lines : Nat
  schema : String
  deriving DecidableEq, Repr

structure Exported where
  files : List FileRecord := []
  errors : List String := []
  deriving DecidableEq, Repr

/-- What became of one document. -/
inductive Written where
  | file (record : FileRecord)
  | refused (message : String)
  deriving DecidableEq, Repr

namespace Exported

def succeeded (exported : Exported) : Bool :=
  exported.errors.isEmpty

def totalBytes (exported : Exported) : Nat :=
  Report.total (exported.files.map FileRecord.bytes)

def add (exported : Exported) : Written → Exported
  | .file record => { exported with files := exported.files ++ [record] }
  | .refused message => { exported with errors := exported.errors ++ [message] }

end Exported

namespace Destination

/-- The directory for the documents of a schema file: the file's own directory, moved from the root
to the output, or the output itself for a file outside the root. -/
def directory (destination : Destination) (schema : Place) : Path :=
  let way := Path.wayText destination.root schema.dropLast
  let output := Path.ofPlace destination.output
  if way = "." || Path.leadsOut way then output else output.join (Path.ofString way)

/-- The file for a document. -/
def target (destination : Destination) (schema : Place) (document : TypeSpec.Document) : Path :=
  (destination.directory schema).join (Path.ofString document.name)

/-- How a refused write is reported: anything that says something exists already reads as a target
that is there. -/
def refusal (target : Path) (file : SchemaFile) (fault : Disk.Fault) : String :=
  if fault.isPresence then
    "File already exists: " ++ target.toString ++ ". Use --force to overwrite."
  else
    "Failed to write " ++ target.toString ++ " (from " ++ file.relative ++ "): " ++ fault.message

/-- The record of a written document. There is none for one outside the output directory. -/
def record (destination : Destination) (target : Path) (file : SchemaFile)
    (document : TypeSpec.Document) (bytes : Nat) : Except Escape FileRecord :=
  let output := Path.ofPlace destination.output
  match output.below? target with
  | some relative =>
    .ok ⟨relative.toString, target.toString, bytes, Text.contentLines document.content,
      file.relative⟩
  | none => .error (.outside target.toString output.toString)

/-- Writes one document. -/
def writeDocument (destination : Destination) (disk : Disk) (file : SchemaFile)
    (document : TypeSpec.Document) : Disk × Except Escape Written :=
  let target := destination.target file.place document
  match disk.writeText target document.content destination.overwrite with
  | (disk, .ok bytes) => (disk, (destination.record target file document bytes).map .file)
  | (disk, .error .nullByte) => (disk, .error (.file .nullByte))
  | (disk, .error fault) => (disk, .ok (.refused (refusal target file fault)))

/-- The line about a document. -/
def writtenLine : Written → Log.Line
  | .file record => ⟨.info, .exporter, "Wrote " ++ record.absolute⟩
  | .refused message => ⟨.error, .exporter, message⟩

/-- Writes documents one after the other, adding to what was exported before. -/
def writeDocuments (destination : Destination) (disk : Disk) (exported : Exported) :
    List (SchemaFile × TypeSpec.Document) → Disk × Except Escape (Exported × List Log.Line)
  | [] => (disk, .ok (exported, []))
  | (file, document) :: rest =>
    match destination.writeDocument disk file document with
    | (disk, .error escape) => (disk, .error escape)
    | (disk, .ok written) =>
      match destination.writeDocuments disk (exported.add written) rest with
      | (disk, .error escape) => (disk, .error escape)
      | (disk, .ok (exported, lines)) => (disk, .ok (exported, writtenLine written :: lines))

/-- The line about a whole export. -/
def exportedLine (exported : Exported) : Log.Line :=
  if exported.succeeded then
    ⟨.info, .exporter, "Export completed successfully: " ++ toString exported.files.length
      ++ " files, " ++ toString exported.totalBytes ++ " bytes, " ++ Number.fixedFloat 3 0 ++ "s."⟩
  else
    ⟨.error, .exporter, "Export completed with " ++ toString exported.errors.length
      ++ " error(s) in " ++ Number.fixedFloat 3 0 ++ "s."⟩

/-- Writes documents and says how it went. -/
def exportAll (destination : Destination) (disk : Disk)
    (documents : List (SchemaFile × TypeSpec.Document)) :
    Disk × Except Escape (Exported × List Log.Line) :=
  match destination.writeDocuments disk { } documents with
  | (disk, .error escape) => (disk, .error escape)
  | (disk, .ok (exported, lines)) => (disk, .ok (exported, lines ++ [exportedLine exported]))

end Destination

namespace Report

/-- A report after an export. -/
def withExport (report : Report) (output : Place) (exported : Exported) : Report :=
  { report with
    outputDirectory := (Path.ofPlace output).toString
    exportErrors := report.exportErrors ++ exported.errors
    writtenFiles := report.writtenFiles ++ exported.files.map FileRecord.absolute
    metrics := report.metrics ++ [⟨"Export to Filesystem", exported.succeeded, 0,
      toString exported.files.length ++ " files, " ++ Number.grouped exported.totalBytes
        ++ " bytes"⟩] }

/-- The root that a report's documents are exported from. -/
def rootPath (report : Report) : Path :=
  Path.ofString (if report.projectRoot = "" then "." else report.projectRoot)

/-- Writes every document of a report and adds the outcome to it. -/
def exportAll (report : Report) (disk : Disk) (output : Path) (overwrite : Bool) :
    Disk × Except Escape (Exported × Report × List Log.Line) :=
  match disk.resolve output, disk.resolve report.rootPath with
  | .error fault, _ | .ok _, .error fault => (disk, .error (.file fault))
  | .ok output, .ok root =>
    match Destination.exportAll ⟨output, root, overwrite⟩ disk report.documents with
    | (disk, .error escape) => (disk, .error escape)
    | (disk, .ok (exported, lines)) =>
      (disk, .ok (exported, report.withExport output exported, lines))

end Report

end RailSpec
