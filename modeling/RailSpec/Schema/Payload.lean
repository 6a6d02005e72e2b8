import RailSpec.Schema
import RailSpec.Value.Written

/-!
Payloads: tables, enums and diagnostics as another program reports them. Whatever does not have the
expected shape is passed over.
-/

namespace RailSpec.Schema

/-- The fields of a payload's mapping. -/
def payloadFields? : Value → Option Fields
  | .mapping fields => some fields
  | _ => none

/-- The text in a field of a payload. -/
def payloadText? (fields : Fields) (name : String) : Option String :=
  match Fields.value? fields name with
  | some (.text characters) => some characters
  | _ => none

/-- The list in a field of a payload; anything else is an empty list. -/
def payloadList (fields : Fields) (name : String) : List Value :=
  ((Fields.value? fields name).map Value.listItems).getD []

/-- The enum that a payload's column names itself, with something in the name. -/
def givenEnum? (fields : Fields) : Option String :=
  (firstOption fields ["enumName", "enum_name"]).bind Value.nonEmptyText?

/-- The enum of a payload's column: the one it names, or else the one its options link to. -/
def payloadEnum (type : String) (fields options : Fields) : Option String :=
  if type = "enum" then (givenEnum? fields).or (linkedEnum type options) else none

theorem payloadEnum_only {type : String} {fields options : Fields} :
    (payloadEnum type fields options).isSome → type = "enum" := by
  intro some
  by_cases same : type = "enum"
  · exact same
  · simp [payloadEnum, same] at some

/-- A column of a payload: a mapping with a name and a type. -/
def decodeColumn (payload : Value) : Option Column :=
  match payloadFields? payload with
  | none => none
  | some fields =>
    match payloadText? fields "name", payloadText? fields "type" with
    | some name, some type =>
      let options := ((Fields.value? fields "options").bind payloadFields?).getD []
      some ⟨name, type, options, payloadEnum type fields options, payloadEnum_only⟩
    | _, _ => none

/-- A table of a payload: a mapping with a name. -/
def decodeTable (payload : Value) : Option Table :=
  match payloadFields? payload with
  | none => none
  | some fields => (payloadText? fields "name").map fun name =>
    namedTable name ((payloadList fields "columns").filterMap decodeColumn)

/-- An enum of a payload: a mapping with a name. Values that are no texts are dropped. -/
def decodeEnum (payload : Value) : Option EnumType :=
  match payloadFields? payload with
  | none => none
  | some fields => (payloadText? fields "name").map fun name =>
    namedEnum name ((payloadList fields "values").filterMap fun value =>
      match value with
      | .text characters => some characters
      | _ => none)

def decodeTables (payload : Value) : List Table :=
  payload.listItems.filterMap decodeTable

def decodeEnums (payload : Value) : List EnumType :=
  payload.listItems.filterMap decodeEnum

/-- The text of a diagnostic entry: its message if it has one, else the entry as it is shown. -/
def diagnosticText (entry : Value) : Except Number.DigitFault String :=
  match entry with
  | .mapping fields | .object fields =>
    match payloadText? fields "message" with
    | some message => .ok message
    | none => entry.message
  | _ => entry.message

def diagnosticEach : List Value → Except Number.DigitFault (List String)
  | [] => .ok []
  | entry :: rest => do
    let text ← diagnosticText entry
    let texts ← diagnosticEach rest
    return text :: texts

/-- The texts of the diagnostic entries in a list or tuple. -/
def diagnosticTexts (entries : Value) : Except Number.DigitFault (List String) :=
  diagnosticEach (entries.items?.getD [])

/-- The texts of all values in a list. -/
def messagesEach : List Value → Except Number.DigitFault (List String)
  | [] => .ok []
  | entry :: rest => do
    let text ← entry.message
    let texts ← messagesEach rest
    return text :: texts

end RailSpec.Schema
