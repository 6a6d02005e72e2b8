import RailSpec.Schema
import RailSpec.Text.Casing

/-! Types of the generated language for the column types of a schema. -/

namespace RailSpec.TypeSpec

/-- The generated type for each known column type; the case of a column type does not matter. -/
def typeTable : List (String × String) := [
  ("string", "string"),
  ("text", "string"),
  ("citext", "string"),
  ("uuid", "string"),
  ("integer", "int32"),
  ("int", "int32"),
  ("bigint", "int64"),
  ("float", "float64"),
  ("decimal", "decimal"),
  ("numeric", "decimal"),
  ("boolean", "boolean"),
  ("datetime", "utcDateTime"),
  ("timestamp", "utcDateTime"),
  ("timestamptz", "utcDateTime"),
  ("date", "plainDate"),
  ("time", "plainTime"),
  ("binary", "bytes"),
  ("json", "Record<string, unknown>"),
  ("jsonb", "Record<string, unknown>")]

/-- The generated type for a column type by the table alone. -/
def tableType (type : String) : String :=
  (typeTable.lookup (Text.lowered type)).getD "unknown"

def referenceTypes : List String := ["references", "belongs_to", "foreign_key"]

/-- The generated type of a column. An enum column has its enum's type if it is linked to one, and a
reference is a number unless it may point to several tables. -/
def columnType (column : Column) : String :=
  let type := Text.lowered column.type
  if type = "enum" then (column.enumName.filter (· ≠ "")).getD "string"
  else if referenceTypes.contains type then
    if (Fields.value? column.options "polymorphic").any Value.isTrue then "unknown" else "int64"
  else tableType type

end RailSpec.TypeSpec
