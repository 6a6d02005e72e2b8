import RailSpec.TypeSpec.Name
import RailSpec.Value

/-! The tables and enums of a schema, and what was noticed while reading them. -/

namespace RailSpec

/-- A column of a table. Only a column of type `enum` has the type name of an enum. -/
structure Column where
  name : String
  type : String
  options : Fields := []
  enumName : Option String := none
  enumOnly : enumName.isSome → type = "enum" := by simp

/-- Only `null: false` makes a column required. -/
def Column.isRequired (column : Column) : Bool :=
  (Fields.value? column.options "null").any Value.isFalse

structure Table where
  name : String
  className : String
  columns : List Column

def Table.columnNames (table : Table) : List String :=
  table.columns.map Column.name

/-- The first column with a name. -/
def Table.column? (table : Table) (name : String) : Option Column :=
  table.columns.find? (·.name == name)

structure EnumType where
  name : String
  className : String
  values : List String
  deriving DecidableEq, Repr

/-- Errors mean that a schema cannot be used; warnings never stand in the way. -/
structure Diagnostics where
  warnings : List String := []
  errors : List String := []
  deriving DecidableEq, Repr

def Diagnostics.hasErrors (diagnostics : Diagnostics) : Bool :=
  !diagnostics.errors.isEmpty

structure Schema where
  tables : List Table := []
  enums : List EnumType := []
  diagnostics : Diagnostics := ⟨[], []⟩

namespace Schema

/-- A schema of which nothing could be read. -/
def failed (errors warnings : List String) : Schema :=
  ⟨[], [], ⟨warnings, errors⟩⟩

/-- The options of an enum column that may name its enum, the first that is given wins. -/
def enumLinks : List String := ["enum_type", "enum", "name"]

/-- The first of the named options that is not null. -/
def firstOption (options : Fields) : List String → Option Value
  | [] => none
  | name :: rest =>
    match Fields.value? options name with
    | none | some .null => firstOption options rest
    | some value => some value

/-- The type name of the enum that a column's options link to; only enum columns have one. -/
def linkedEnum (type : String) (options : Fields) : Option String :=
  if type = "enum" then
    ((firstOption options enumLinks).bind Value.nonEmptyText?).map TypeSpec.className
  else none

theorem linkedEnum_only {type : String} {options : Fields} :
    (linkedEnum type options).isSome → type = "enum" := by
  intro some
  by_cases same : type = "enum"
  · exact same
  · simp [linkedEnum, same] at some

/-- A column whose enum is the one its options link to. -/
def linkedColumn (name type : String) (options : Fields) : Column :=
  ⟨name, type, options, linkedEnum type options, linkedEnum_only⟩

/-- A table with the type name that its name gives. -/
def namedTable (name : String) (columns : List Column) : Table :=
  ⟨name, TypeSpec.className name, columns⟩

/-- An enum with the type name that its name gives. -/
def namedEnum (name : String) (values : List String) : EnumType :=
  ⟨name, TypeSpec.className name, values⟩

end Schema

end RailSpec
