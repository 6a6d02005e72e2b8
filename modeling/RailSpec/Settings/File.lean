import RailSpec.Disk.File
import RailSpec.Json
import RailSpec.Settings.Document

/-!
Settings files: JSON by their name, else YAML. Every way in which settings can fail to be had is a
cause of its own.
-/

namespace RailSpec.Settings

/-- Why there are no settings. -/
inductive Trouble where
  | absent (path : String)
  | notFile (path : String)
  | file (fault : Disk.ReadFault)
  | json (path : String) (fault : Json.Fault)
  | yaml (path : String) (fault : Yaml.Fault)
  | noObject (kind : String)
  | noMapping (kind : String)
  | invalid (faults : List Record.Fault)

def Trouble.message : Trouble → String
  | .absent path => "Config file not found: " ++ path
  | .notFile path => "Config path is not a file: " ++ path
  | .file fault => fault.message
  | .json _ (.digits fault) => fault.message
  | .json path fault => "Invalid JSON in " ++ path ++ ": " ++ fault.message
  | .yaml path .broken => "Invalid YAML in " ++ path
  | .yaml _ fault => fault.message
  | .noObject kind => "Expected a JSON object at top level, got " ++ kind ++ "."
  | .noMapping kind => "Expected a YAML mapping at top level, got " ++ kind ++ "."
  | .invalid faults =>
    "Config validation failed: " ++ toString faults.length ++ " validation error"
      ++ (if faults.length = 1 then "" else "s") ++ " for GenerationConfig"

/-- Whether a path names a JSON file. -/
def isJsonPath (path : Disk.Path) : Bool :=
  Text.lowered path.suffix = ".json"

def readJson (path : Disk.Path) (text : String) : Except Trouble Mapping :=
  match Json.parse text with
  | .error fault => .error (.json path.toString fault)
  | .ok (.mapping fields) => .ok (Mapping.ofFields fields)
  | .ok value => .error (.noObject value.kind)

/-- The mapping of a YAML text; an empty document is an empty mapping. -/
def readYamlMapping (path : Disk.Path) (text : String) : Except Trouble Mapping :=
  match readYaml text with
  | .error fault => .error (.yaml path.toString fault)
  | .ok .empty => .ok []
  | .ok (.mapping mapping) => .ok mapping
  | .ok (.other kind) => .error (.noMapping kind)

/-- The mapping in a settings file. -/
def load (disk : Disk) (path : Disk.Path) : Except Trouble Mapping :=
  match disk.present path, disk.isFile path with
  | .error fault, _ | .ok true, .error fault => .error (.file (.file fault))
  | .ok false, _ => .error (.absent path.toString)
  | .ok true, .ok false => .error (.notFile path.toString)
  | .ok true, .ok true =>
    match disk.readText path with
    | .error fault => .error (.file fault)
    | .ok text => if isJsonPath path then readJson path text else readYamlMapping path text

/-- Settings from a mapping and overrides, with its faults as one trouble. -/
def accept (mapping : Mapping) (overrides : Fields) : Except Trouble Settings :=
  (ofMapping mapping overrides).mapError .invalid

end RailSpec.Settings
