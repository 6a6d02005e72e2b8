import RailSpec.TypeSpec.Document

/-! Generation: the documents for everything that a schema declares. -/

namespace RailSpec

/-- What comes of one schema text. -/
structure Generation where
  models : List TypeSpec.Document := []
  enums : List TypeSpec.Document := []
  tables : List Table := []
  diagnostics : Diagnostics := ⟨[], []⟩

namespace Generation

open TypeSpec (Frame Document)

/-- All documents, those of the enums first. -/
def documents (generation : Generation) : List Document :=
  generation.enums ++ generation.models

/-- A generation of which there are only errors. -/
def unreadable (message : String) : Generation :=
  { diagnostics := { errors := [message] } }

/-- The documents of tables in order. -/
def modelDocuments (frame : Frame) : List Table → Except Number.DigitFault (List Document)
  | [] => .ok []
  | table :: rest => do
    let document ← frame.modelDocument table
    let documents ← modelDocuments frame rest
    return document :: documents

/-- Renders everything in a schema, also in one with errors. -/
def ofSchema (frame : Frame) (schema : Schema) : Except Number.DigitFault Generation := do
  let models ← modelDocuments frame schema.tables
  return ⟨models, schema.enums.map frame.enumDocument, schema.tables, schema.diagnostics⟩

end Generation

end RailSpec
