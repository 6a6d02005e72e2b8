import RailSpec.SchemaText.Statement

/-!
Schema texts as trees: the statements of a text under one root.
-/

namespace RailSpec.SchemaText

/-- The tree of a schema's text. A byte order mark in front is no part of it. Every step spends
fuel, but a character is worth only a few of them. -/
def parse (text : String) : ParseTree :=
  let whole := Cursor.ofString text
  let start := (if whole.startsWith "\ufeff" then whole.next else whole).skipStatements
  let fuel := 24 * text.length + 48
  let (statements, stop) := readStatements fuel .text start
  node "program" start stop statements

end RailSpec.SchemaText
