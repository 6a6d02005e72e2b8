import RailSpec.Proofs.Schema.Origin

/-!
Names in extracted schemas. Tables, enums and the values of enums always have one, and no column's
name holds a double quote. A column is left without a name just where the name that its statement
gives is checked before its quotes are dropped, and is nothing but quotes.
-/

namespace RailSpec

namespace Declaration

variable {name : String}

/-- A name of which nothing is left without its double quotes, though something is in it. -/
def IsOnlyQuotes (name : String) : Prop :=
  name ≠ "" ∧ ∀ character ∈ name.toList, character = '"'

theorem columnName_quoteless (name : String) : '"' ∉ (columnName name).toList := by
  simp [columnName]

theorem columnName_empty_iff : columnName name = "" ↔ ∀ character ∈ name.toList, character = '"' := by
  rw [columnName, ← String.toList_inj, String.toList_ofList]
  simp [List.filter_eq_nil_iff]

end Declaration

namespace Schema

open Declaration (firstName IsOnlyQuotes)

variable {source : Source} {statements : List Value} {column : Column}

theorem timestamp_named (member : column ∈ timestampColumns) :
    column.name = "created_at" ∨ column.name = "updated_at" := by
  obtain ⟨name, listed, rfl⟩ := List.mem_map.mp member
  simpa using listed

theorem ColumnFrom.quoteless (origin : ColumnFrom source statements column) :
    '"' ∉ column.name.toList := by
  cases origin with
  | timestamp member => rcases timestamp_named member with same | same <;> simp [same]
  | call member found =>
    obtain ⟨given, _, dropped⟩ := (Declaration.columnStatement_column found).named
    exact fun quote => Declaration.columnName_quoteless given (dropped ▸ quote)

/-- A column without a name has a statement that gives it one of quotes only. -/
theorem ColumnFrom.nameless (origin : ColumnFrom source statements column)
    (empty : column.name = "") :
    ∃ statement ∈ statements, ∃ given, firstName source statement = .ok (some given) ∧
      IsOnlyQuotes given := by
  cases origin with
  | timestamp member => rcases timestamp_named member with same | same <;> simp [same] at empty
  | call member found =>
    obtain ⟨given, named, dropped⟩ := (Declaration.columnStatement_column found).named
    have quotes := Declaration.columnName_empty_iff.mp (dropped.symm.trans empty)
    exact ⟨_, member, given, named, Declaration.firstName_filled named, quotes⟩

/-- Whatever is extracted has a name, but for columns whose statement names them with quotes only,
and no column has a quote in its name. -/
theorem extract_named {tree : Value} {diagnostics : Diagnostics} {schema : Schema}
    (found : extract source tree diagnostics = .ok schema) :
    (∀ enum ∈ schema.enums, enum.name ≠ "" ∧ "" ∉ enum.values) ∧
      ∀ table ∈ schema.tables, table.name ≠ "" ∧ ∀ column ∈ table.columns,
        '"' ∉ column.name.toList ∧ (column.name = "" →
          ∃ visit ∈ Node.walk tree, ∃ statement ∈ Call.statements (.mapping visit.fields),
            ∃ given, firstName source statement = .ok (some given) ∧ IsOnlyQuotes given) := by
  have extracted := extract_origin found
  constructor
  · intro enum member
    obtain ⟨visit, _, declared⟩ := extracted.enum enum member
    cases declared with
    | enum called => exact Declaration.enumCall_named called
  · intro table member
    obtain ⟨visit, _, declared⟩ := extracted.table table member
    refine ⟨?_, fun column held => ?_⟩
    · cases declared with
      | table called => exact (Declaration.tableCall_named called).1
    · obtain ⟨block, met, origin⟩ := extracted.column member held
      exact ⟨origin.quoteless, fun empty => ⟨block, met, origin.nameless empty⟩⟩

/-- The statement `t.string '"'` in the block of a table. -/
def quoteStatement : Value :=
  .mapping [("type", .text "CallNode"), ("name", .text "string"),
    ("arguments", .list [.mapping [("type", .text "StringNode"), ("value", .text "\"")]])]

def quoteTable : Value :=
  .mapping [("type", .text "CallNode"), ("name", .text "create_table"),
    ("arguments", .list [.mapping [("type", .text "StringNode"), ("value", .text "users")]]),
    ("block", .mapping [("type", .text "BlockNode"), ("body", .list [quoteStatement])])]

/-- Extraction gives a column without a name. -/
theorem extract_quoteTable :
    ∃ schema table column, extract (Source.ofString "") quoteTable {} = .ok schema ∧
      table ∈ schema.tables ∧ column ∈ table.columns ∧ column.name = "" :=
  ⟨⟨[namedTable "users" [linkedColumn "" "string" []]], [], {}⟩, _, _, rfl,
    List.mem_singleton.mpr rfl, List.mem_singleton.mpr rfl, rfl⟩

theorem extract_named_quoteTable :
    extract (Source.ofString "") quoteTable {} =
      .ok ⟨[namedTable "users" [linkedColumn "" "string" []]], [], {}⟩ ∧
    ∃ visit ∈ Node.walk quoteTable, ∃ statement ∈ Call.statements (.mapping visit.fields),
      ∃ given, firstName (Source.ofString "") statement = .ok (some given) ∧ IsOnlyQuotes given := by
  have found : extract (Source.ofString "") quoteTable {} =
      .ok ⟨[namedTable "users" [linkedColumn "" "string" []]], [], {}⟩ := rfl
  have tables := (extract_named found).2
  have column := (tables _ (List.mem_singleton.mpr rfl)).2 _ (List.mem_singleton.mpr rfl)
  exact ⟨found, column.2 rfl⟩

end Schema

end RailSpec
