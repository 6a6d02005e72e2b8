import RailSpec.Schema.Extract

/-!
Outlines: the declarations of a schema as plain data, the syntax tree in which a provider with
nested call nodes writes them down, and the records that they stand for.
-/

namespace RailSpec.Outline

/-- What an option may be set to. -/
inductive Literal where
  | null
  | truth (truth : Bool)
  | int (number : Int)
  | float (number : Float)
  | text (characters : String)
  | array (items : List Literal)

structure Setting where
  name : String
  value : Literal
  named : name ≠ ""

/-- A column with the keyword hashes behind its name. Its type is the method that is called for it;
the methods with a meaning of their own are no types. -/
structure ColumnLine where
  name : String
  type : String
  hashes : List (List Setting)
  named : name ≠ ""
  unquoted : '"' ∉ name.toList
  typed : type ≠ ""
  ordinary : type ∉ ["timestamps", "t.timestamps", "create_enum"]

/-- A statement in the block of a table. -/
inductive Line where
  | timestamps
  | column (line : ColumnLine)

/-- A declaration, or a call of any other method around declarations. -/
inductive Entry where
  | table (name : String) (lines : List Line) (named : name ≠ "")
  | enum (name : String) (values : List String) (named : name ≠ "") (filled : "" ∉ values)
  | scope (method : String) (arguments : List Literal) (hashes : List (List Setting))
      (body : List Entry) (other : method ∉ ["create_table", "create_enum"])

/-! The syntax tree of an outline. -/

def node (tag : String) (fields : Fields) : Value :=
  .mapping (("type", .text tag) :: fields)

def stringNode (characters : String) : Value :=
  node "StringNode" [("value", .text characters)]

def arrayNode (elements : List Value) : Value :=
  node "ArrayNode" [("elements", .list elements)]

mutual

def Literal.node : Literal → Value
  | .null => Outline.node "IntegerNode" [("value", .null)]
  | .truth true => Outline.node "TrueNode" [("value", .bool true)]
  | .truth false => Outline.node "FalseNode" [("value", .bool false)]
  | .int number => Outline.node "IntegerNode" [("value", .int number)]
  | .float number => Outline.node "IntegerNode" [("value", .float number)]
  | .text characters => stringNode characters
  | .array items => arrayNode (Literal.nodes items)

def Literal.nodes : List Literal → List Value
  | [] => []
  | item :: rest => Literal.node item :: Literal.nodes rest

end

def Setting.node (setting : Setting) : Value :=
  Outline.node "AssocNode" [
    ("key", Outline.node "SymbolNode" [("value", .text setting.name)]),
    ("value", setting.value.node)]

def hashNode (settings : List Setting) : Value :=
  node "KeywordHashNode" [("elements", .list (settings.map Setting.node))]

def callFields (method : String) (receiver : Value) (arguments : List Value) : Fields := [
  ("type", .text "CallNode"),
  ("name", .text method),
  ("receiver", receiver),
  ("arguments", node "ArgumentsNode" [("arguments", .list arguments)])]

def bodyFields (statements : List Value) : Fields := [
  ("type", .text "StatementsNode"),
  ("body", .list statements)]

/-- The fields of a block: its statements stand in a node of their own. -/
def blockFields (statements : List Value) : Fields := [
  ("type", .text "BlockNode"),
  ("body", .mapping (bodyFields statements))]

/-- The fields of a call with a block. -/
def scopeFields (method : String) (arguments statements : List Value) : Fields :=
  callFields method .null arguments ++ [("block", .mapping (blockFields statements))]

/-- The variable on which the statements in a table's block are called. -/
def tableVariable : Value :=
  node "LocalVariableReadNode" [("name", .text "t")]

def Line.node : Line → Value
  | .timestamps => .mapping (callFields "timestamps" tableVariable [])
  | .column line => .mapping
      (callFields line.type tableVariable (stringNode line.name :: line.hashes.map hashNode))

mutual

def Entry.node : Entry → Value
  | .table name lines _ =>
    .mapping (scopeFields "create_table" [stringNode name] (lines.map Line.node))
  | .enum name values _ _ =>
    .mapping (callFields "create_enum" .null [stringNode name, arrayNode (values.map stringNode)])
  | .scope method arguments hashes body _ =>
    .mapping (scopeFields method (Literal.nodes arguments ++ hashes.map hashNode)
      (Entry.nodes body))

def Entry.nodes : List Entry → List Value
  | [] => []
  | entry :: rest => Entry.node entry :: Entry.nodes rest

end

/-- The syntax tree of a whole schema. -/
def program (entries : List Entry) : Value :=
  node "ProgramNode" [("statements", .mapping (bodyFields (Entry.nodes entries)))]

/-! The records of an outline. -/

mutual

def Literal.value : Literal → Value
  | .null => .null
  | .truth held => .bool held
  | .int number => .int number
  | .float number => .float number
  | .text characters => .text characters
  | .array items => .list (Literal.values items)

def Literal.values : List Literal → List Value
  | [] => []
  | item :: rest => Literal.value item :: Literal.values rest

end

def Setting.field (setting : Setting) : String × Value :=
  (setting.name, setting.value.value)

/-- The options of a column: those of all its hashes, of which a later one wins. -/
def ColumnLine.options (line : ColumnLine) : Fields :=
  Fields.merge [] (line.hashes.flatten.map Setting.field)

def Line.columns : Line → List Column
  | .timestamps => Schema.timestampColumns
  | .column line => [Schema.linkedColumn line.name line.type line.options]

mutual

/-- The tables of a declaration, from the outside in. -/
def Entry.tables : Entry → List Table
  | .table name lines _ => [Schema.namedTable name (lines.flatMap Line.columns)]
  | .enum .. => []
  | .scope _ _ _ body _ => tables body

def tables : List Entry → List Table
  | [] => []
  | entry :: rest => Entry.tables entry ++ tables rest

end

mutual

def Entry.enums : Entry → List EnumType
  | .table .. => []
  | .enum name values _ _ => [Schema.namedEnum name values]
  | .scope _ _ _ body _ => enums body

def enums : List Entry → List EnumType
  | [] => []
  | entry :: rest => Entry.enums entry ++ enums rest

end

end RailSpec.Outline
