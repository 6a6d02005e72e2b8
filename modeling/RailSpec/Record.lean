import RailSpec.Value.Written

/-!
Checked reading of records from loose values. A reader gives a record or every fault that it found,
each with its place, in the order of the record's fields.
-/

namespace RailSpec.Record

/-- A step from a record to a part of it. A key that is no text is shown as the value it is. -/
inductive Step where
  | field (name : String)
  | index (position : Nat)
  | key (value : Value)

/-- What is wrong at a place. -/
inductive Cause where
  | missing
  | notText
  | notMapping
  | notList
  | notRecord (title : String)
  | notNumber
  | unreadableNumber
  | notPositive
  | emptyText
  | unknownField
  | keyNotText
  | frozen
  | noField (name : String)
  | refused (reason : String)
  deriving DecidableEq, Repr

structure Fault where
  path : List Step
  cause : Cause

/-- The short name of a cause. -/
def Cause.code : Cause → String
  | .missing => "missing"
  | .notText => "string_type"
  | .notMapping => "dict_type"
  | .notList => "list_type"
  | .notRecord _ => "model_type"
  | .notNumber => "float_type"
  | .unreadableNumber => "float_parsing"
  | .notPositive => "greater_than"
  | .emptyText => "string_too_short"
  | .unknownField => "extra_forbidden"
  | .keyNotText => "invalid_key"
  | .frozen => "frozen_instance"
  | .noField _ => "no_such_attribute"
  | .refused _ => "value_error"

def Cause.message : Cause → String
  | .missing => "Field required"
  | .notText => "Input should be a valid string"
  | .notMapping => "Input should be a valid dictionary"
  | .notList => "Input should be a valid list"
  | .notRecord title => "Input should be a valid dictionary or instance of " ++ title
  | .notNumber => "Input should be a valid number"
  | .unreadableNumber => "Input should be a valid number, unable to parse string as a number"
  | .notPositive => "Input should be greater than 0"
  | .emptyText => "String should have at least 1 character"
  | .unknownField => "Extra inputs are not permitted"
  | .keyNotText => "Keys should be strings"
  | .frozen => "Instance is frozen"
  | .noField name => "Object has no attribute '" ++ name ++ "'"
  | .refused reason => "Value error, " ++ reason

/-- Whether an integer fits into 64 bits with a sign. -/
def fitsWord (number : Int) : Bool :=
  -(Nat.pow 2 63 : Nat) ≤ number && number < (Nat.pow 2 63 : Nat)

/-- A step as a value: a truth value counts as one or zero, and any other key that is no short
integer is shown as a text. -/
def Step.toValue : Step → Value
  | .field name => .text name
  | .index position => .int position
  | .key (.bool truth) => .int (if truth then 1 else 0)
  | .key (.int number) => if fitsWord number then .int number else .text (toString number)
  | .key value => .text (value.shown.toOption.getD "")

def Fault.toValue (fault : Fault) : Value :=
  .mapping [
    ("type", .text fault.cause.code),
    ("loc", .list (fault.path.map Step.toValue)),
    ("msg", .text fault.cause.message)]

/-- A record, or every fault that keeps it from being read. -/
abbrev Checked (α : Type) := Except (List Fault) α

/-- A single fault at the place itself. -/
def refuse {α : Type} (cause : Cause) : Checked α :=
  .error [⟨[], cause⟩]

/-- Faults seen from one step further out. -/
def under {α : Type} (step : Step) (checked : Checked α) : Checked α :=
  checked.mapError fun faults => faults.map fun fault => { fault with path := step :: fault.path }

/-- Both results, or the faults of both in order. -/
def both {α β : Type} (first : Checked α) (second : Checked β) : Checked (α × β) :=
  match first, second with
  | .ok a, .ok b => .ok (a, b)
  | .ok _, .error faults => .error faults
  | .error faults, .ok _ => .error faults
  | .error faults, .error others => .error (faults ++ others)

def readText : Value → Checked String
  | .text characters => .ok characters
  | _ => refuse .notText

/-- A text with at least one character. -/
def readFilledText (value : Value) : Checked String :=
  (readText value).bind fun text => if text = "" then refuse .emptyText else .ok text

/-- A null, or what another reader reads. -/
def readOptional {α : Type} (read : Value → Checked α) : Value → Checked (Option α)
  | .null => .ok none
  | value => (read value).map some

def readMapping : Value → Checked Fields
  | .mapping fields => .ok fields
  | _ => refuse .notMapping

/-- Reads every item, the first at the given position. -/
def readEach {α : Type} (read : Value → Checked α) (position : Nat) : List Value → Checked (List α)
  | [] => .ok []
  | item :: rest =>
    (both (under (.index position) (read item)) (readEach read (position + 1) rest)).map
      fun (head, tail) => head :: tail

/-- A list or tuple with every item read. -/
def readList {α : Type} (read : Value → Checked α) (value : Value) : Checked (List α) :=
  match value.items? with
  | some items => readEach read 0 items
  | none => refuse .notList

/-- A mapping read as a record of the given kind. -/
def readRecord {α : Type} (title : String) (read : Fields → Checked α) : Value → Checked α
  | .mapping fields => read fields
  | _ => refuse (.notRecord title)

/-- The value of a field and the name that it is given under: the name that others use for it, or
else its own. -/
def given (fields : Fields) (name own : String) : Option (String × Value) :=
  ((Fields.value? fields name).map (name, ·)).or ((Fields.value? fields own).map (own, ·))

/-- A field that has to be there. Its faults bear the name that it is given under; if it is not
there, the name that others use. -/
def required {α : Type} (fields : Fields) (name own : String) (read : Value → Checked α) :
    Checked α :=
  match given fields name own with
  | some (key, value) => under (.field key) (read value)
  | none => under (.field name) (refuse .missing)

/-- A field with a value of its own when it is not there. -/
def optional {α : Type} (fields : Fields) (name own : String) (default : α)
    (read : Value → Checked α) : Checked α :=
  match given fields name own with
  | some (key, value) => under (.field key) (read value)
  | none => .ok default

/-- Whether a name is no field's: what is put under it stays out of sight and is never refused. -/
def isHidden (name : String) : Bool :=
  name.front? = some '_'

/-- A finished record after something is put under a name: its fields stay as they are. -/
def assignFinished {α : Type} (record : α) (name : String) : Checked α :=
  if isHidden name then .ok record else under (.field name) (refuse .frozen)

end RailSpec.Record
