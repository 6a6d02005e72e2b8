import RailSpec.Value

/-!
Nodes of a syntax tree. A provider may hand out mappings or values that give a mapping on demand,
and may keep a node's tag under `type` or under `kind`; everything else reads nodes through here.
-/

namespace RailSpec.Node

/-- The fields of a node, whichever way its provider keeps them. -/
def fields? : Value → Option Fields
  | .mapping fields | .deferred (.mapping fields) => some fields
  | _ => none

/-- The text of a field. -/
def text? (fields : Fields) (name : String) : Option String :=
  match Fields.value? fields name with
  | some (.text characters) => some characters
  | _ => none

/-- The tag among a node's fields: `type` before `kind`, if it is a text. -/
def tagOf (fields : Fields) : Option String :=
  (text? fields "type").or (text? fields "kind")

/-- The tag of a value, if it is a node with one. -/
def tag? (value : Value) : Option String :=
  (fields? value).bind tagOf

def isTagged (value : Value) : Bool :=
  (tag? value).isSome

/-- The first of the named fields that is not null. -/
def firstOf (fields : Fields) : List String → Option Value
  | [] => none
  | name :: rest =>
    match Fields.value? fields name with
    | none | some .null => firstOf fields rest
    | some value => some value

/-- The first of the named fields of a node that is not null. -/
def field? (node : Value) (names : List String) : Option Value :=
  (fields? node).bind (firstOf · names)

/-- The items of the first of the named fields that is not null, if it is a list or tuple. -/
def listField? (node : Value) (names : List String) : Option (List Value) :=
  (field? node names).bind Value.items?

end RailSpec.Node
