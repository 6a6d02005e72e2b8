import RailSpec.Generation
import RailSpec.Record

/-! Schemas, documents and generations read from loose values. Unknown fields are passed over. -/

namespace RailSpec

open Record

/-- A column; the type name of an enum is refused for any type but `enum`. -/
def Column.ofFields (fields : Fields) : Checked Column :=
  (both (required fields "name" "name" readText) <|
    both (required fields "type" "type" readText) <|
    both (optional fields "options" "options" [] readMapping)
      (optional fields "enumName" "enum_name" none (readOptional readText))).bind
  fun (name, type, options, enumName) =>
    if fits : enumName.isSome → type = "enum" then .ok ⟨name, type, options, enumName, fits⟩
    else
      refuse (.refused ("Column '" ++ name ++ "' has enum_name '" ++ enumName.getD "" ++
        "' but type '" ++ type ++ "'."))

def Column.ofValue : Value → Checked Column :=
  readRecord "ColumnDefinition" Column.ofFields

def Table.ofFields (fields : Fields) : Checked Table :=
  (both (required fields "name" "name" readText) <|
    both (required fields "className" "class_name" readText)
      (optional fields "columns" "columns" [] (readList Column.ofValue))).map
  fun (name, className, columns) => ⟨name, className, columns⟩

def Table.ofValue : Value → Checked Table :=
  readRecord "TableDefinition" Table.ofFields

def EnumType.ofFields (fields : Fields) : Checked EnumType :=
  (both (required fields "name" "name" readText) <|
    both (required fields "className" "class_name" readText)
      (optional fields "values" "values" [] (readList readText))).map
  fun (name, className, values) => ⟨name, className, values⟩

def EnumType.ofValue : Value → Checked EnumType :=
  readRecord "EnumDefinition" EnumType.ofFields

def Diagnostics.ofFields (fields : Fields) : Checked Diagnostics :=
  (both (optional fields "warnings" "warnings" [] (readList readText))
    (optional fields "errors" "errors" [] (readList readText))).map
  fun (warnings, errors) => ⟨warnings, errors⟩

def Diagnostics.ofValue : Value → Checked Diagnostics :=
  readRecord "Diagnostics" Diagnostics.ofFields

def Schema.ofFields (fields : Fields) : Checked Schema :=
  (both (optional fields "tables" "tables" [] (readList Table.ofValue)) <|
    both (optional fields "enums" "enums" [] (readList EnumType.ofValue))
      (optional fields "diagnostics" "diagnostics" ⟨[], []⟩ Diagnostics.ofValue)).map
  fun (tables, enums, diagnostics) => ⟨tables, enums, diagnostics⟩

def Schema.ofValue : Value → Checked Schema :=
  readRecord "ParsedSchema" Schema.ofFields

namespace TypeSpec

def Document.ofFields (fields : Fields) : Checked Document :=
  (both (required fields "name" "name" readFilledText) <|
    both (required fields "content" "content" readText) <|
    both (optional fields "tableName" "table_name" none (readOptional readText))
      (optional fields "enumName" "enum_name" none (readOptional readText))).map
  fun (name, content, tableName, enumName) => ⟨name, content, tableName, enumName⟩

def Document.ofValue : Value → Checked Document :=
  readRecord "TypespecDocument" Document.ofFields

end TypeSpec

def Generation.ofFields (fields : Fields) : Checked Generation :=
  (both (optional fields "models" "models" [] (readList TypeSpec.Document.ofValue)) <|
    both (optional fields "enums" "enums" [] (readList TypeSpec.Document.ofValue)) <|
    both (optional fields "tables" "tables" [] (readList Table.ofValue))
      (optional fields "diagnostics" "diagnostics" ⟨[], []⟩ Diagnostics.ofValue)).map
  fun (models, enums, tables, diagnostics) => ⟨models, enums, tables, diagnostics⟩

def Generation.ofValue : Value → Checked Generation :=
  readRecord "GenerationResult" Generation.ofFields

/-! One line about a record, as listings show it. -/

def Column.summary (column : Column) : String :=
  "<Column " ++ column.name ++ (if column.isRequired then "" else "?") ++ " " ++ column.type ++ ">"

def Table.summary (table : Table) : String :=
  "<Table " ++ table.name ++ " (" ++ toString table.columns.length ++ " cols)>"

def EnumType.summary (enum : EnumType) : String :=
  "<Enum " ++ enum.name ++ " [" ++ Text.joined ", " (enum.values.map Text.shown) ++ "]>"

def Schema.summary (schema : Schema) : String :=
  "<ParsedSchema " ++ toString schema.tables.length ++ " tables, " ++ toString schema.enums.length
    ++ " enums, " ++ toString schema.diagnostics.errors.length ++ " errors>"

def Generation.summary (generation : Generation) : String :=
  "<GenerationResult " ++ toString generation.models.length ++ " models, "
    ++ toString generation.enums.length ++ " enums, "
    ++ (if generation.diagnostics.errors.isEmpty then "OK" else "FAILED") ++ ">"

end RailSpec
