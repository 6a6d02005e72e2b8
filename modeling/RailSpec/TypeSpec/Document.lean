import RailSpec.TypeSpec.Type
import RailSpec.Value.Written

/-!
Documents of the generated language: one declaration each, framed by a namespace if there is one. A
model or enum is a head line, indented lines for its members and a closing brace.
-/

namespace RailSpec.TypeSpec

open Number (DigitFault)

/-- What stands around every declaration: the namespace in front of it and the extension of its
file's name. -/
structure Frame where
  namespaceName : Option String := none
  fileExtension : String := ".tsp"
  deriving DecidableEq, Repr

/-- A document with its file's name, and the table or enum that it was made from. -/
structure Document where
  name : String
  content : String
  tableName : Option String := none
  enumName : Option String := none
  deriving DecidableEq, Repr

def Document.lineCount (document : Document) : Nat :=
  Text.lineCount document.content

/-- The options that a column's documentation tells of, in this order. -/
def documentedOptions : List String := ["default", "limit"]

/-- A line of documentation. -/
def docLine (key value : String) : String :=
  "@doc(" ++ Text.doubleQuoted (key ++ ": " ++ value) ++ ")"

/-- The documentation lines for those of the named options that a column has. -/
def docLines (options : Fields) : List String → Except DigitFault (List String)
  | [] => .ok []
  | key :: rest =>
    match Fields.value? options key with
    | none => docLines options rest
    | some value => do
      let text ← value.spelled
      let lines ← docLines options rest
      return docLine key text :: lines

/-- The line that declares a column; columns that may be null are optional. -/
def propertyLine (column : Column) : String :=
  column.name ++ (if column.isRequired then "" else "?") ++ ": " ++ columnType column ++ ";"

/-- The lines of a column: its documentation and its declaration. -/
def columnLines (column : Column) : Except DigitFault (List String) :=
  (docLines column.options documentedOptions).map (· ++ [propertyLine column])

def columnsLines : List Column → Except DigitFault (List String)
  | [] => .ok []
  | column :: rest => do
    let lines ← columnLines column
    let others ← columnsLines rest
    return lines ++ others

/-- A declaration: its keyword and name, its member lines indented by two, and a closing brace. -/
def declaration (keyword name : String) (members : List String) : String :=
  Text.unlines ((keyword ++ " " ++ name ++ " \x7b") :: Text.indentLines members 1 2 ++ ["\x7d"])

/-- The declaration of a table. -/
def renderModel (table : Table) : Except DigitFault String :=
  (columnsLines table.columns).map (declaration "model" table.className)

/-- The line for an enum value; a value without a member name has none. -/
def memberLine (value : String) : Option String :=
  (memberName value).map fun member => member ++ ": " ++ Text.doubleQuoted value ++ ";"

/-- The declaration of an enum. -/
def renderEnum (enum : EnumType) : String :=
  declaration "enum" enum.className (enum.values.filterMap memberLine)

namespace Frame

/-- The namespace that is declared in front of a declaration; an empty one is none. -/
def declared (frame : Frame) : Option String :=
  frame.namespaceName.filter (· ≠ "")

/-- A declaration in its frame. -/
def content (frame : Frame) (declaration : String) : String :=
  match frame.declared with
  | some name => Text.unlines ["namespace " ++ name ++ ";", "", declaration, ""]
  | none => declaration ++ "\n"

def fileName (frame : Frame) (className : String) : String :=
  className ++ frame.fileExtension

/-- The document for a table. -/
def modelDocument (frame : Frame) (table : Table) : Except DigitFault Document :=
  (renderModel table).map fun text =>
    ⟨frame.fileName table.className, frame.content text, some table.name, none⟩

/-- The document for an enum. -/
def enumDocument (frame : Frame) (enum : EnumType) : Document :=
  ⟨frame.fileName enum.className, frame.content (renderEnum enum), none, some enum.name⟩

end Frame

end RailSpec.TypeSpec
