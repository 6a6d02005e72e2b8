import RailSpec.Node.Literal

/-! Options: keyed values from the trailing arguments of a declaration. -/

namespace RailSpec.Options

open Number (DigitFault)

/-- The tags of a node that is a single key with its value. -/
def pairTags : List String :=
  ["AssocNode", "assoc_node", "pair", "assoc"]

def isPair (node : Value) : Bool :=
  (Node.tag? node).any pairTags.contains

/-- The first of the named fields that is a list or tuple. -/
def firstList? (fields : Fields) : List String → Option (List Value)
  | [] => none
  | name :: rest => ((Fields.value? fields name).bind Value.items?).or (firstList? fields rest)

/-- The options of a node: of its list of pairs, or of the node alone if it is a pair. -/
def ofNode (source : Source) (node : Value) : Except DigitFault Fields :=
  if isPair node then
    (Literal.resolvePair source node).map fun pair => pair.toList
  else
    match (Node.fields? node).bind (firstList? · ["elements", "assocs", "arguments", "pairs"]) with
    | some pairs => Literal.resolveOptions source [] pairs
    | none => .ok []

/-- Adds the options of every node to some options, later ones winning. -/
def mergedInto (source : Source) (options : Fields) : List Value → Except DigitFault Fields
  | [] => .ok options
  | node :: rest => do
    let more ← ofNode source node
    mergedInto source (Fields.merge options more) rest

/-- The options of all nodes, later ones winning. -/
def merged (source : Source) (nodes : List Value) : Except DigitFault Fields :=
  mergedInto source [] nodes

end RailSpec.Options
