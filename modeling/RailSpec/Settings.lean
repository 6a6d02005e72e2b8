import RailSpec.Number.Literal
import RailSpec.Record
import RailSpec.Text.Blank
import RailSpec.TypeSpec.Document

/-!
Settings of a generation. They come from a mapping of which every entry must be a known field, and
each field may be assigned later; a refused assignment changes nothing.
-/

namespace RailSpec

/-- A time limit in seconds of none never ends; no command means the bundled one. -/
structure Settings where
  namespaceName : Option String := none
  command : Option (List String) := none
  timeLimit : Option Float := some 60.0
  fileExtension : String := ".tsp"

namespace Settings

open Record

/-- A key of a settings mapping; a file may have keys that are no texts. -/
inductive Key where
  | text (name : String)
  | other (value : Value)

abbrev Entries := List (Key × Value)

def Key.isText (name : String) : Key → Bool
  | .text own => own == name
  | .other _ => false

/-- The value of an entry. -/
def given? (entries : Entries) (name : String) : Option Value :=
  (entries.find? (·.1.isText name)).map Prod.snd

/-- Gives an entry a value: in its place if it is there, else at the end. -/
def putEntry (entries : Entries) (name : String) (value : Value) : Entries :=
  match entries with
  | [] => [(.text name, value)]
  | entry :: rest =>
    if entry.1.isText name then (entry.1, value) :: rest else entry :: putEntry rest name value

/-- Fields as the entries of a settings mapping. -/
def entriesOf (fields : Fields) : Entries :=
  fields.map fun (name, value) => (.text name, value)

/-- A namespace without the blanks around it; a blank one is none. -/
def trimmedName (name : Option String) : Option String :=
  (name.map Text.strip).filter (· ≠ "")

def readNamespace (value : Value) : Checked (Option String) :=
  (readOptional readText value).map trimmedName

/-- A command has at least the program to run. -/
def readCommand (value : Value) : Checked (Option (List String)) :=
  (readOptional (readList readText) value).bind fun command =>
    if command = some [] then
      refuse (.refused "fallback_command must contain at least the executable.")
    else .ok command

/-- A number, a truth value, or the text of a number, as a double. -/
def readNumber : Value → Checked Float
  | .float number => .ok number
  | .int number =>
    match Number.floatOfInt? number with
    | some value => .ok value
    | none => refuse .notNumber
  | .bool truth => .ok (if truth then 1 else 0)
  | .text characters =>
    match Number.readSettingFloat characters with
    | some value => .ok value
    | none => refuse .unreadableNumber
  | _ => refuse .notNumber

def readTimeLimit (value : Value) : Checked (Option Float) :=
  readOptional (fun value => (readNumber value).bind fun seconds =>
    if seconds > 0 then .ok seconds else refuse .notPositive) value

def fieldNames : List String :=
  ["namespace", "fallback_command", "fallback_timeout", "file_extension"]

/-- The faults of entries that are no fields, in their order. -/
def strayFaults (entries : Entries) : List Fault :=
  entries.filterMap fun entry =>
    match entry.1 with
    | .text name =>
      if fieldNames.contains name then none else some ⟨[.field name], .unknownField⟩
    | .other key => some ⟨[.key key], .keyNotText⟩

/-- The value of an entry if it is there, else one that stands for it. -/
def entryOr {α : Type} (entries : Entries) (name : String) (default : α)
    (read : Value → Checked α) : Checked α :=
  match given? entries name with
  | some value => under (.field name) (read value)
  | none => .ok default

/-- Settings from the entries of a mapping. -/
def ofEntries (entries : Entries) : Checked Settings :=
  let initial : Settings := { }
  let stray := strayFaults entries
  (both (entryOr entries "namespace" initial.namespaceName readNamespace) <|
    both (entryOr entries "fallback_command" initial.command readCommand) <|
    both (entryOr entries "fallback_timeout" initial.timeLimit readTimeLimit) <|
    both (entryOr entries "file_extension" initial.fileExtension readFilledText)
      (if stray.isEmpty then .ok () else .error stray)).map
  fun (namespaceName, command, timeLimit, fileExtension, _) =>
    ⟨namespaceName, command, timeLimit, fileExtension⟩

/-- Settings from a loose value, which must be a mapping. -/
def ofValue (value : Value) : Checked Settings :=
  readRecord "GenerationConfig" (ofEntries ∘ entriesOf) value

/-- Settings after a field is assigned a new value. -/
def assign (settings : Settings) (name : String) (value : Value) : Checked Settings :=
  if name = "namespace" then
    (under (.field name) (readNamespace value)).map
      fun read => { settings with namespaceName := read }
  else if name = "fallback_command" then
    (under (.field name) (readCommand value)).map fun read => { settings with command := read }
  else if name = "fallback_timeout" then
    (under (.field name) (readTimeLimit value)).map fun read => { settings with timeLimit := read }
  else if name = "file_extension" then
    (under (.field name) (readFilledText value)).map
      fun read => { settings with fileExtension := read }
  else if isHidden name then .ok settings
  else under (.field name) (refuse (.noField name))

/-- Settings after assignments one after the other. A refused one leaves them as they are. -/
def assignEach (settings : Settings) : List (String × Value) → Settings
  | [] => settings
  | (name, value) :: rest =>
    match settings.assign name value with
    | .ok assigned => assigned.assignEach rest
    | .error _ => settings.assignEach rest

/-- The fields of settings, as they can be read again. -/
def toFields (settings : Settings) : Fields := [
  ("namespace", (settings.namespaceName.map Value.text).getD .null),
  ("fallback_command",
    (settings.command.map fun words => Value.list (words.map Value.text)).getD .null),
  ("fallback_timeout", (settings.timeLimit.map Value.float).getD .null),
  ("file_extension", .text settings.fileExtension)]

/-- Settings with another namespace, checked like all settings. -/
def withNamespace (settings : Settings) (name : String) : Checked Settings :=
  ofEntries (entriesOf (Fields.put settings.toFields "namespace" (.text name)))

/-- What the settings say about the documents themselves. -/
def frame (settings : Settings) : TypeSpec.Frame :=
  ⟨settings.namespaceName, settings.fileExtension⟩

end Settings

end RailSpec
