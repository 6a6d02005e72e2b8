import RailSpec.Node

/-!
The walk through a tree: every tagged node once, each before what it holds, together with the fields
of the node around it.
-/

namespace RailSpec.Node

/-- A tagged node that the walk meets, and the node whose field holds it. -/
structure Visit where
  fields : Fields
  parent : Option Fields

/-- The visit of a node itself: none unless it has a tag. -/
def visitOf (parent : Option Fields) (fields : Fields) : List Visit :=
  if (tagOf fields).isSome then [⟨fields, parent⟩] else []

mutual

/-- The visits of a node and of all below it. -/
def visits (parent : Option Fields) : Value → List Visit
  | .mapping fields | .deferred (.mapping fields) =>
    visitOf parent fields ++ visitsBelow fields fields
  | _ => []

/-- The visits below a node, field by field. -/
def visitsBelow (owner : Fields) : List (String × Value) → List Visit
  | [] => []
  | (_, value) :: rest => visitsHeld owner value ++ visitsBelow owner rest

/-- The visits of a field's value: the nodes of a list, or a single node if it has a tag. -/
def visitsHeld (owner : Fields) : Value → List Visit
  | .list items | .tuple items => visitsEach owner items
  | .mapping fields | .deferred (.mapping fields) =>
    if (tagOf fields).isSome then ⟨fields, some owner⟩ :: visitsBelow fields fields else []
  | _ => []

def visitsEach (owner : Fields) : List Value → List Visit
  | [] => []
  | item :: rest => visits (some owner) item ++ visitsEach owner rest

end

/-- The walk from the root of a tree. -/
def walk (root : Value) : List Visit :=
  visits none root

/-- The fields of every tagged node that passes a test, in walking order. -/
def collect (root : Value) (test : Fields → Bool) : List Fields :=
  ((walk root).map Visit.fields).filter test

end RailSpec.Node
