import RailSpec.Disk.File
import RailSpec.Log
import RailSpec.Reader
import RailSpec.Report
import RailSpec.Settings

/-!
Reports over schema files. A file that cannot be read, or is no UTF-8, gives an error of its own and
leaves the others alone; only what keeps a text from being read as a schema at all ends the run.
-/

namespace RailSpec

/-- What ends a run over files before it is through. -/
inductive Escape where
  | file (fault : Disk.Fault)
  | reader (fault : Reader.Fault)
  | outside (path directory : String)
  | noPath
  deriving DecidableEq, Repr

def Escape.message : Escape → String
  | .file fault => fault.message
  | .reader fault => fault.message
  | .outside path directory =>
    Text.shown path ++ " is not in the subpath of " ++ Text.shown directory
      ++ " OR one path is relative and the other is absolute."
  | .noPath => "expected str, bytes or os.PathLike object, not list"

/-- What makes documents of a schema's text: a reader and settings. -/
structure Generator where
  reader : Reader
  settings : Settings := { }

namespace Generator

/-- The documents for a text, also for what there is of one with errors. -/
def generate (generator : Generator) (text : String) : Except Reader.Fault Generation := do
  let schema ← generator.reader text
  (Generation.ofSchema generator.settings.frame schema).mapError fun fault =>
    .declaration (.digits fault)

/-- What keeps a text from having documents under another namespace. -/
inductive NamedFault where
  | settings (faults : List Record.Fault)
  | reader (fault : Reader.Fault)

/-- The settings with another namespace, if one is given. -/
def namedSettings (generator : Generator) : Option String → Record.Checked Settings
  | none => .ok generator.settings
  | some name => generator.settings.withNamespace name

/-- The documents for a text; a name, if it is given, takes the place of the namespace. -/
def generateNamed (generator : Generator) (name : Option String) (text : String) :
    Except NamedFault Generation := do
  let settings ← (generator.namedSettings name).mapError .settings
  (generate ⟨generator.reader, settings⟩ text).mapError .reader

/-- The line about a generation. -/
def generatedLine (generation : Generation) : Log.Line :=
  ⟨.info, .generator, "Generated " ++ toString generation.models.length ++ " models and "
    ++ toString generation.enums.length ++ " enums in " ++ Number.fixedFloat 3 0 ++ "s ("
    ++ toString generation.diagnostics.warnings.length ++ " warning(s), "
    ++ toString generation.diagnostics.errors.length ++ " error(s))."⟩

/-- The documents for a schema file. -/
def generateFile (generator : Generator) (disk : Disk) (path : Disk.Path) :
    Except Disk.ReadFault (Except Reader.Fault Generation) :=
  (disk.readText path).map generator.generate

/-- The documents for a schema file and the line about it; a file that cannot be read has an error
instead. -/
def tryFile (generator : Generator) (disk : Disk) (path : Disk.Path) :
    Except Escape (Generation × Log.Line) :=
  match generator.generateFile disk path with
  | .error (.file .nullByte) => .error (.file .nullByte)
  | .error fault =>
    .ok (Generation.unreadable fault.message,
      ⟨.error, .generator, "Could not read " ++ path.toString ++ ": " ++ fault.message⟩)
  | .ok (.error fault) => .error (.reader fault)
  | .ok (.ok generation) => .ok (generation, generatedLine generation)

/-- A schema file as seen from the project's root, or its bare name if it is outside. -/
def relativePath (disk : Disk) (path : Disk.Path) (root : Disk.Place) :
    Except Disk.Fault String :=
  (disk.resolve path).map fun place =>
    let way := Disk.Path.wayText root place
    if Disk.Path.leadsOut way then path.name else way

/-- What a report says about one schema file. -/
def parseMetric (relative : String) (generation : Generation) : Metric :=
  ⟨"Parse " ++ relative, !generation.diagnostics.hasErrors, 0,
    toString generation.models.length ++ " models, " ++ toString generation.enums.length
      ++ " enums"⟩

/-- A schema file with what came of it. -/
def readFile (generator : Generator) (disk : Disk) (root : Disk.Place) (path : Disk.Path) :
    Except Escape (SchemaFile × Log.Line) := do
  let relative ← (relativePath disk path root).mapError .file
  let (generation, line) ← generator.tryFile disk path
  return (⟨path.resolve disk.here, relative, generation⟩, line)

/-- Adds schema files to a report one after the other. -/
def addFiles (generator : Generator) (disk : Disk) (root : Disk.Place) (report : Report) :
    List Disk.Path → Except Escape (Report × List Log.Line)
  | [] => .ok (report, [])
  | path :: rest => do
    let (file, line) ← generator.readFile disk root path
    let added := (report.addFile file).addMetric (parseMetric file.relative file.generation)
    let (report, lines) ← generator.addFiles disk root added rest
    return (report, line :: lines)

/-- The report over schema files of a project. -/
def generateFiles (generator : Generator) (disk : Disk) (paths : List Disk.Path)
    (projectRoot : Disk.Path) : Except Escape (Report × List Log.Line) := do
  let root ← (disk.resolve projectRoot).mapError .file
  generator.addFiles disk root { projectRoot := (Disk.Path.ofPlace root).toString } paths

end Generator

end RailSpec
