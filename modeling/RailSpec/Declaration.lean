import RailSpec.Node.Call
import RailSpec.Node.Options
import RailSpec.Node.Walk

/-!
Declarations: the calls of a schema that say something about tables, enums and columns. Everything
else in a tree is passed over.
-/

namespace RailSpec.Declaration

/-- What can keep a declaration from being read. -/
inductive Fault where
  | digits (fault : Number.DigitFault)
  | unhashable (kind : String)
  deriving DecidableEq, Repr

def Fault.message : Fault → String
  | .digits fault => fault.message
  | .unhashable kind => "unhashable type: '" ++ kind ++ "'"

def callTags : List String := ["CallNode", "call_node", "call"]

def blockTags : List String := ["BlockNode", "block_node", "do_block", "block"]

def hasTag (tags : List String) (fields : Fields) : Bool :=
  (Node.tagOf fields).any tags.contains

/-- A table call with the block that holds its columns. -/
structure TableCall where
  name : String
  block : Fields

structure EnumCall where
  name : String
  values : List String

/-- A statement in the block of a table. -/
inductive ColumnStatement where
  | timestamps
  | column (name type : String) (options : Fields)

/-- The text that the first argument of a call stands for, if there is something in it. -/
def firstName (source : Source) (call : Value) : Except Number.DigitFault (Option String) :=
  match Call.arguments call with
  | [] => .ok none
  | first :: _ => (Literal.resolve source first).map Value.nonEmptyText?

/-- Whether a value counts as given when another would stand in for it. -/
def isGiven : Value → Bool
  | .null | .bool false | .int 0 | .text "" | .list [] | .tuple [] | .mapping [] => false
  | .float number => number != 0
  | _ => true

/-- The call that a block belongs to: one of its own fields, or the node around it. -/
def callOfBlock (block : Fields) (parent : Option Fields) : Option Value :=
  match (Node.firstOf block ["call", "statement", "target"]).filter isGiven with
  | some call => some call
  | none => parent.map .mapping

/-- The table that a block belongs to, if its call creates one. -/
def tableCall (source : Source) (node : Fields) (parent : Option Fields) :
    Except Number.DigitFault (Option TableCall) :=
  if hasTag blockTags node then
    match callOfBlock node parent with
    | none => .ok none
    | some call => do
      if (← Call.name source call) = some "create_table" then
        return (← firstName source call).map (⟨·, node⟩)
      else return none
  else .ok none

/-- The values in the second argument of a call. -/
def enumValues (source : Source) (call : Value) : Except Number.DigitFault (List String) :=
  match Call.arguments call with
  | _ :: values :: _ => Literal.arrayTexts source values
  | _ => .ok []

/-- The enum that a call creates. -/
def enumCall (source : Source) (node : Fields) : Except Number.DigitFault (Option EnumCall) :=
  if hasTag callTags node then do
    let call := Value.mapping node
    if (← Call.name source call) = some "create_enum" then
      match ← firstName source call with
      | some name => return some ⟨name, ← enumValues source call⟩
      | none => return none
    else return none
  else .ok none

def timestampMethods : List String := ["timestamps", "t.timestamps"]

/-- A bare word is a statement only if it asks for timestamps. A list or mapping in its place cannot
be looked up among the words. -/
def wordStatement (source : Source) (statement : Value) : Except Fault (Option ColumnStatement) :=
  match Literal.resolve source statement with
  | .error fault => .error (.digits fault)
  | .ok (.text word) => .ok (if timestampMethods.contains word then some .timestamps else none)
  | .ok (.list items) => .error (.unhashable (Value.list items).kind)
  | .ok (.mapping fields) => .error (.unhashable (Value.mapping fields).kind)
  | .ok _ => .ok none

/-- Column names keep everything but double quotes. -/
def columnName (name : String) : String :=
  String.ofList (name.toList.filter (· ≠ '"'))

/-- A call in the block of a table: its method is the type of the column that its first argument
names. -/
def callStatement (source : Source) (statement : Value) :
    Except Number.DigitFault (Option ColumnStatement) := do
  match (← Call.name source statement).filter (· ≠ "") with
  | none => return none
  | some method =>
    if timestampMethods.contains method then return some .timestamps
    else
      match Call.arguments statement with
      | [] => return none
      | first :: rest =>
        match (← Literal.resolve source first).nonEmptyText? with
        | none => return none
        | some name => return some (.column (columnName name) method (← Options.merged source rest))

/-- What a statement of a table's block declares. -/
def columnStatement (source : Source) (statement : Value) :
    Except Fault (Option ColumnStatement) :=
  match Node.tag? statement with
  | none => .ok none
  | some tag =>
    if tag = "identifier" then wordStatement source statement
    else if callTags.contains tag then (callStatement source statement).mapError .digits
    else .ok none

end RailSpec.Declaration
