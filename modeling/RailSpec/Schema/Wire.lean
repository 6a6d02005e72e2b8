import RailSpec.Generation

/-!
The wire form of records: values with the field names that other programs read and write, together
with what can be computed from the rest.
-/

namespace RailSpec

def Value.ofOption (text : Option String) : Value :=
  (text.map Value.text).getD .null

def Value.texts (items : List String) : Value :=
  .list (items.map Value.text)

def Column.toValue (column : Column) : Value :=
  .mapping [
    ("name", .text column.name),
    ("type", .text column.type),
    ("options", .mapping column.options),
    ("enumName", Value.ofOption column.enumName),
    ("is_required", .bool column.isRequired)]

def Table.toValue (table : Table) : Value :=
  .mapping [
    ("name", .text table.name),
    ("className", .text table.className),
    ("columns", .list (table.columns.map Column.toValue)),
    ("column_names", Value.texts table.columnNames)]

def EnumType.toValue (enum : EnumType) : Value :=
  .mapping [
    ("name", .text enum.name),
    ("className", .text enum.className),
    ("values", Value.texts enum.values)]

def Diagnostics.toValue (diagnostics : Diagnostics) : Value :=
  .mapping [
    ("warnings", Value.texts diagnostics.warnings),
    ("errors", Value.texts diagnostics.errors),
    ("has_errors", .bool diagnostics.hasErrors)]

def Schema.toValue (schema : Schema) : Value :=
  .mapping [
    ("tables", .list (schema.tables.map Table.toValue)),
    ("enums", .list (schema.enums.map EnumType.toValue)),
    ("diagnostics", schema.diagnostics.toValue)]

def TypeSpec.Document.toValue (document : TypeSpec.Document) : Value :=
  .mapping [
    ("name", .text document.name),
    ("content", .text document.content),
    ("tableName", Value.ofOption document.tableName),
    ("enumName", Value.ofOption document.enumName),
    ("line_count", .int document.lineCount)]

/-- The fields of a generation that its wire form keeps as they are. -/
def Generation.toFields (generation : Generation) : Fields := [
  ("models", .list (generation.models.map TypeSpec.Document.toValue)),
  ("enums", .list (generation.enums.map TypeSpec.Document.toValue)),
  ("tables", .list (generation.tables.map Table.toValue)),
  ("diagnostics", generation.diagnostics.toValue)]

end RailSpec
