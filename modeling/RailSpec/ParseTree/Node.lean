import RailSpec.Node.Source
import RailSpec.Number.Literal
import RailSpec.ParseTree
import RailSpec.ParseTree.Offset

/-!
Parsed nodes as fields: a node's children under the names of their grammar fields or together in one
list, its place in the text, and the value of a number or truth word.
-/

namespace RailSpec.ParseTree

/-- A text together with the map of its byte offsets. -/
structure Located where
  source : Source
  offsets : OffsetMap

def Located.ofString (text : String) : Located :=
  ⟨Source.ofString text, OffsetMap.ofString text⟩

/-- The text that a node covers. -/
def Located.text (located : Located) (label : Label) : List Char :=
  located.source.slice (located.offsets.toCharacter label.start)
    (located.offsets.toCharacter label.stop)

/-- The grammar fields whose children keep their names, in the order of a node's fields. -/
def fieldNames : List String :=
  ["receiver", "method", "arguments", "block", "body", "parameters", "key", "value"]

/-- The kinds of nodes that hold statements. -/
def bodyKinds : List String :=
  ["program", "body_statement", "block_body", "do_block", "block", "begin_block"]

/-- The name of the list that holds the other children of a node. -/
def listName (kind : String) : String :=
  if ["array", "string_array", "symbol_array"].contains kind then "elements"
  else if ["string", "bare_string", "delimited_symbol", "bare_symbol"].contains kind then "parts"
  else if kind = "hash" then "pairs"
  else if kind = "argument_list" then "arguments"
  else if bodyKinds.contains kind then "body"
  else "children"

/-- Lists that a node has even when they are empty. -/
def keepsEmpty (name : String) : Bool :=
  ["parts", "elements", "pairs", "arguments"].contains name

/-- The children of a node: those that stand under their field names, and the others in order. -/
structure Placed where
  claimed : Fields
  others : List Value

/-- Sorts children. Only the first child of a field can claim its name, and only if it is a named
node; of the rest, punctuation and comments are dropped. -/
def place (seen : List String) : List (Label × Value) → Placed
  | [] => ⟨[], []⟩
  | (label, value) :: rest =>
    match label.field.filter fun name => fieldNames.contains name && !seen.contains name with
    | some name =>
      let placed := place (name :: seen) rest
      if label.named then ⟨(name, value) :: placed.claimed, placed.others⟩ else placed
    | none =>
      let placed := place seen rest
      if label.named && label.kind ≠ "comment" then ⟨placed.claimed, value :: placed.others⟩
      else placed

/-- The value of a number or truth word; a number that cannot be read has none. -/
def leafValue (kind : String) (text : List Char) : Option Value :=
  if kind = "true" then some (.bool true)
  else if kind = "false" then some (.bool false)
  else if kind = "integer" then (Number.readInteger (String.ofList text)).map .int
  else if kind = "float" then (Number.readFloat (String.ofList text)).map .float
  else none

/-- The first child in a field. -/
def childIn (name : String) (children : List Label) : Option Label :=
  children.find? (·.field == some name)

/-- A number after a sign. -/
def signedValue (sign : List Char) : Value → Option Value
  | .int number =>
    if sign = ['-'] then some (.int (-number))
    else if sign = ['+'] then some (.int number) else none
  | .float number =>
    if sign = ['-'] then some (.float (-number))
    else if sign = ['+'] then some (.float number) else none
  | _ => none

/-- The value of a sign with a number behind it. -/
def unaryValue (located : Located) (children : List Label) : Option Value :=
  match childIn "operator" children, childIn "operand" children with
  | some operator, some operand =>
    if operand.kind = "integer" || operand.kind = "float" then
      (leafValue operand.kind (located.text operand)).bind
        (signedValue (Text.trimBy Text.isBlank (located.text operator)))
    else none
  | _, _ => none

/-- The value that a node has besides its children. -/
def ownValue (located : Located) (label : Label) (children : List Label) : Option Value :=
  if label.kind = "unary" then unaryValue located children
  else leafValue label.kind (located.text label)

/-- Where a node lies, in characters. -/
def locationField (located : Located) (label : Label) : Value :=
  .mapping [
    ("startOffset", .int (located.offsets.toCharacter label.start)),
    ("endOffset", .int (located.offsets.toCharacter label.stop))]

/-- The fields that hold the children of a node. -/
def childFields (kind : String) (placed : Placed) : Fields :=
  let claimed := fieldNames.filterMap fun name =>
    (Fields.value? placed.claimed name).map fun value => (name, value)
  let name := listName kind
  let list := if (Fields.value? placed.claimed name).isSome then "children" else name
  if placed.others.isEmpty && !keepsEmpty list then claimed
  else claimed ++ [(list, .list placed.others)]

/-- The fields of a node, from those of its children. -/
def fieldsOf (located : Located) (label : Label) (children : List (Label × Value)) : Fields :=
  let fields := ("type", .text label.kind) :: ("location", locationField located label)
    :: childFields label.kind (place [] children)
  match ownValue located label (children.map Prod.fst) with
  | some value => Fields.put fields "value" value
  | none => fields

mutual

/-- A parsed tree as a node that gives its fields on demand. -/
def toValue (located : Located) : ParseTree → Value
  | .node label children =>
    .deferred (.mapping (fieldsOf located label (toValues located children)))

def toValues (located : Located) : List ParseTree → List (Label × Value)
  | [] => []
  | .node label children :: rest =>
    (label, .deferred (.mapping (fieldsOf located label (toValues located children))))
      :: toValues located rest

end

end RailSpec.ParseTree
