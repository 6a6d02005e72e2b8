import RailSpec.Node.Source
import RailSpec.Value.Written

/-!
Literals: the value that a node stands for. Structured data comes first, from the most to the least
direct form, and the source text only if there is none.
-/

namespace RailSpec.Literal

open Number (DigitFault)

/-- The text of one part of a compound string. -/
def partText : Value → Except DigitFault String
  | .null => .ok ""
  | value => value.message

/-- The texts of all parts, one after the other. -/
def partsText : List Value → Except DigitFault String
  | [] => .ok ""
  | part :: rest => do
    let text ← partText part
    let texts ← partsText rest
    return text ++ texts

/-- The value that a node holds directly. -/
def heldValue? (fields : Fields) : Option Value :=
  (Fields.value? fields "value").filter Value.isPrimitive

mutual

/-- The value of a node: a primitive is its own; else a primitive `value`, joined `parts`, a list of
`elements`, a mapping of `pairs`, or at last the source text. -/
def resolve (source : Source) : Value → Except DigitFault Value
  | .mapping fields | .deferred (.mapping fields) =>
    match heldValue? fields with
    | some value => .ok value
    | none =>
      match resolveList source "parts" fields with
      | some parts => (parts.bind partsText).map .text
      | none =>
        match resolveList source "elements" fields with
        | some elements => elements.map .list
        | none =>
          match resolvePairs source fields with
          | some pairs => pairs.map .mapping
          | none => .ok ((source.recover fields).getD .null)
  | .list items | .tuple items => (resolveEach source items).map .list
  | .deferred _ | .object _ => .ok .null
  | value => .ok value

def resolveEach (source : Source) : List Value → Except DigitFault (List Value)
  | [] => .ok []
  | item :: rest => do
    let value ← resolve source item
    let values ← resolveEach source rest
    return value :: values

/-- The values in the list under a name, if there is a list. -/
def resolveList (source : Source) (name : String) :
    List (String × Value) → Option (Except DigitFault (List Value))
  | [] => none
  | (key, value) :: rest =>
    if key = name then
      match value with
      | .list items | .tuple items => some (resolveEach source items)
      | _ => none
    else resolveList source name rest

/-- The value under a name, if it is there and not null. -/
def resolveField (source : Source) (name : String) :
    List (String × Value) → Option (Except DigitFault Value)
  | [] => none
  | (key, value) :: rest =>
    if key = name then
      match value with
      | .null => none
      | held => some (resolve source held)
    else resolveField source name rest

/-- The key and value of a pair: a sequence of two, or a node with a key. No pair if the key is not
a text with something in it. -/
def resolvePair (source : Source) : Value → Except DigitFault (Option (String × Value))
  | .list [key, value] | .tuple [key, value] => do
    match (← resolve source key).nonEmptyText? with
    | some name => return some (name, ← resolve source value)
    | none => return none
  | .mapping fields | .deferred (.mapping fields) => do
    let key := ((resolveField source "key" fields).or (resolveField source "name" fields)).getD
      (.ok .null)
    match (← key).nonEmptyText? with
    | some name =>
      let value := ((resolveField source "value" fields).or (resolveField source "val" fields)).getD
        (.ok .null)
      return some (name, ← value)
    | none => return none
  | _ => .ok none

/-- The options in the list under `pairs`, if there is a list. -/
def resolvePairs (source : Source) : List (String × Value) → Option (Except DigitFault Fields)
  | [] => none
  | (key, value) :: rest =>
    if key = "pairs" then
      match value with
      | .list items | .tuple items => some (resolveOptions source [] items)
      | _ => none
    else resolvePairs source rest

/-- Adds the pairs of a list to options; a later pair wins and keeps the place of an earlier one. -/
def resolveOptions (source : Source) (options : Fields) : List Value → Except DigitFault Fields
  | [] => .ok options
  | item :: rest => do
    match ← resolvePair source item with
    | some (name, value) => resolveOptions source (Fields.put options name value) rest
    | none => resolveOptions source options rest

end

/-- The texts that may name a node: its `name` or `value`, or those of its `name` or `id`. -/
def nameCandidates (fields : Fields) : List (Option Value) :=
  let name := Fields.value? fields "name"
  let id := Fields.value? fields "id"
  [name, Fields.value? fields "value",
    name.bind (Node.field? · ["value"]),
    id.bind (Node.field? · ["name"]),
    id.bind (Node.field? · ["value"])]

/-- The first text among the candidates for a name. -/
def givenName? (fields : Fields) : Option String :=
  (nameCandidates fields).findSome? fun candidate =>
    match candidate with
    | some (.text characters) => some characters
    | _ => none

/-- The name that a value stands for: a text itself, a name given by a node, or a node's literal if
that is a text with something in it. -/
def identifier (source : Source) : Value → Except DigitFault (Option String)
  | .text characters => .ok (some characters)
  | value =>
    match Node.fields? value with
    | none => .ok none
    | some fields =>
      match givenName? fields with
      | some name => .ok (some name)
      | none => (resolve source (.mapping fields)).map Value.nonEmptyText?

/-- The texts with something in them among the items of an array node, in order. -/
def arrayTexts (source : Source) (node : Value) : Except DigitFault (List String) :=
  match Node.listField? node ["elements", "args", "arguments", "items", "contents", "parts"] with
  | some items => (resolveEach source items).map fun values => values.filterMap Value.nonEmptyText?
  | none => .ok []

end RailSpec.Literal
