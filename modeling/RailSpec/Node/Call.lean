import RailSpec.Node.Literal

/-! Calls and blocks: names, arguments and statements, whichever way a provider nests them. -/

namespace RailSpec.Call

open Number (DigitFault)

/-- The name of the method that a call node calls. -/
def name (source : Source) (call : Value) : Except DigitFault (Option String) :=
  match Node.field? call ["name", "method", "identifier"] with
  | some named => Literal.identifier source named
  | none => .ok none

/-- The argument nodes of a call: its `arguments`, those of its `arguments` node, or its `args`. -/
def arguments (call : Value) : List Value :=
  match Node.fields? call with
  | none => []
  | some fields =>
    let held := Fields.value? fields "arguments"
    ((held.bind Value.items?).or
      ((held.bind (Node.listField? · ["arguments"])).or
        ((Fields.value? fields "args").bind Value.items?))).getD []

/-- The statement nodes of a block. -/
def statements (block : Value) : List Value :=
  match Node.fields? block with
  | none => []
  | some fields =>
    let body := Fields.value? fields "body"
    ((body.bind Value.items?).or
      ((body.bind (Node.listField? · ["statements"])).or
        (((Fields.value? fields "statements").bind (Node.listField? · ["body"])).or
          (body.bind (Node.listField? · ["body"]))))).getD []

end RailSpec.Call
