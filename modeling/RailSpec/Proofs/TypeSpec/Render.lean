import RailSpec.Generation
import RailSpec.Proofs.Fields
import RailSpec.Proofs.Result
import RailSpec.Proofs.Value.Writable

/-!
Rendering of tables. Whatever is in the options of their columns, there is a document for each just
if every integer that the documentation tells can be written.
-/

namespace RailSpec

namespace TypeSpec

/-- A table in whose options every integer can be written. -/
def IsWritable (table : Table) : Prop :=
  ∀ column ∈ table.columns, ∀ option ∈ column.options, option.2.IsWritable

/-- The values that a column's documentation tells. -/
def toldValues (column : Column) : List Value :=
  documentedOptions.filterMap (Fields.value? column.options)

theorem docLines_returns_iff {options : Fields} {names : List String} :
    (∃ lines, docLines options names = .ok lines) ↔
      ∀ value ∈ names.filterMap (Fields.value? options), value.WritesIntegers := by
  induction names with
  | nil => exact ⟨fun _ => List.forall_mem_nil _, fun _ => ⟨[], rfl⟩⟩
  | cons name rest ih =>
    rw [docLines]
    cases found : Fields.value? options name with
    | none => rw [List.filterMap_cons_none found, ← ih]
    | some value =>
      rw [List.filterMap_cons_some found, List.forall_mem_cons, ← ih, ← Value.spelled_returns_iff]
      exact both_ok_iff

theorem columnsLines_returns_iff {columns : List Column} :
    (∃ lines, columnsLines columns = .ok lines) ↔
      ∀ value ∈ columns.flatMap toldValues, value.WritesIntegers := by
  induction columns with
  | nil => exact ⟨fun _ => List.forall_mem_nil _, fun _ => ⟨[], rfl⟩⟩
  | cons column rest ih =>
    rw [List.flatMap_cons, List.forall_mem_append, ← ih, columnsLines, columnLines, both_ok_iff,
      map_ok_iff, docLines_returns_iff]
    rfl

/-- A table is rendered just if the integers that its documentation tells can be written. -/
theorem renderModel_returns_iff {table : Table} :
    (∃ text, renderModel table = .ok text) ↔
      ∀ value ∈ table.columns.flatMap toldValues, value.WritesIntegers := by
  rw [renderModel, map_ok_iff, columnsLines_returns_iff]

theorem columnsLines_returns {columns : List Column}
    (writable : ∀ column ∈ columns, ∀ option ∈ column.options, option.2.IsWritable) :
    ∃ lines, columnsLines columns = .ok lines := by
  apply columnsLines_returns_iff.mpr
  intro value member
  obtain ⟨column, listed, told⟩ := List.mem_flatMap.mp member
  obtain ⟨name, -, found⟩ := List.mem_filterMap.mp told
  exact (writable column listed _ (Fields.mem_of_value? found)).writesIntegers

end TypeSpec

namespace Generation

open TypeSpec (Frame)

theorem modelDocuments_returns (frame : Frame) {tables : List Table}
    (writable : ∀ table ∈ tables, TypeSpec.IsWritable table) :
    ∃ documents, modelDocuments frame tables = .ok documents := by
  induction tables with
  | nil => exact ⟨[], rfl⟩
  | cons table rest ih =>
    obtain ⟨here, later⟩ := List.forall_mem_cons.mp writable
    obtain ⟨lines, rendered⟩ := TypeSpec.columnsLines_returns here
    obtain ⟨documents, others⟩ := ih later
    exact ⟨_, by rw [modelDocuments, Frame.modelDocument, TypeSpec.renderModel, rendered, others]; rfl⟩

/-- A schema whose options can be written is rendered. -/
theorem ofSchema_returns (frame : Frame) {schema : Schema}
    (writable : ∀ table ∈ schema.tables, TypeSpec.IsWritable table) :
    ∃ generation, ofSchema frame schema = .ok generation := by
  obtain ⟨documents, rendered⟩ := modelDocuments_returns frame writable
  exact ⟨_, by rw [ofSchema, rendered]; rfl⟩

end Generation

end RailSpec
