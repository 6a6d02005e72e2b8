import RailSpec.Declaration
import RailSpec.Json
import RailSpec.ParseTree.Node
import RailSpec.Schema.Extract
import RailSpec.Schema.Payload

/-! Readers: ways from the text of a schema to its tables and enums. -/

namespace RailSpec

/-- What keeps a text from becoming a schema or documents at all. -/
inductive Reader.Fault where
  | declaration (fault : Declaration.Fault)
  | report (fault : Json.Fault)
  | noObject (kind : String)
  deriving DecidableEq, Repr

/-- A way to read the text of a schema. -/
abbrev Reader := String → Except Reader.Fault Schema

namespace Reader

def Fault.message : Fault → String
  | .declaration fault => fault.message
  | .report fault => fault.message
  | .noObject kind => "'" ++ kind ++ "' object has no attribute 'get'"

/-- The schema of a parsed text: what its tree declares, and an error for every problem in it. -/
def schemaOfTree (text : String) (tree : ParseTree) : Except Declaration.Fault Schema :=
  Schema.extract (Source.ofString text) (ParseTree.toValue (ParseTree.Located.ofString text) tree)
    { errors := tree.problems.map ParseTree.Problem.message }

/-- Reads a text through a parser. -/
def ofParser (parse : String → ParseTree) : Reader := fun text =>
  (schemaOfTree text (parse text)).mapError .declaration

/-- The schema that the fields of a report hold. -/
def schemaOfReport (fields : Fields) : Except Number.DigitFault Schema := do
  let field := fun name => (Fields.value? fields name).getD .null
  let warnings ← Schema.diagnosticTexts (field "warnings")
  let errors ← Schema.diagnosticTexts (field "errors")
  return ⟨Schema.decodeTables (field "tables"), Schema.decodeEnums (field "enums"),
    ⟨warnings, errors⟩⟩

/-- Reads a text that is itself the JSON report of a schema. -/
def ofReport : Reader := fun text =>
  match Json.parse text with
  | .error fault => .error (.report fault)
  | .ok (.mapping fields) =>
    (schemaOfReport fields).mapError fun fault => .declaration (.digits fault)
  | .ok value => .error (.noObject value.kind)

end Reader

end RailSpec
