import RailSpec.Fallback
import RailSpec.Proofs.Node.Json
import RailSpec.Proofs.Schema.Origin
import RailSpec.Schema.Payload
import RailSpec.Schema.Wire

/-!
The wire form read back. Schemas that come from a tree or from a payload are written as JSON from
which the same tables and enums are decoded: names of types are those that the names of tables and
enums give, and an enum column without a link has no options that would link it.
-/

namespace RailSpec

open Schema (linkedEnum)

/-- A column that its wire form determines. Either its options link it, or it has a link with
something in it. -/
structure Column.Wired (column : Column) : Prop where
  json : Fields.IsJson column.options
  linked : column.enumName = linkedEnum column.type column.options ∨
    ∃ name, column.enumName = some name ∧ name ≠ ""

structure Table.Wired (table : Table) : Prop where
  named : table.className = TypeSpec.className table.name
  columns : ∀ column ∈ table.columns, column.Wired

structure EnumType.Wired (enum : EnumType) : Prop where
  named : enum.className = TypeSpec.className enum.name

structure Schema.Wired (schema : Schema) : Prop where
  tables : ∀ table ∈ schema.tables, table.Wired
  enums : ∀ enum ∈ schema.enums, enum.Wired

namespace Schema

section Decode

private theorem payloadEnum_toValue {column : Column} (wired : column.Wired) {fields : Fields}
    (written : column.toValue = .mapping fields) :
    payloadEnum column.type fields column.options = column.enumName := by
  cases written
  have given : givenEnum? [("name", .text column.name), ("type", .text column.type),
      ("options", .mapping column.options), ("enumName", Value.ofOption column.enumName),
      ("is_required", .bool column.isRequired)] = column.enumName.filter (· ≠ "") := by
    cases link : column.enumName with
    | none => simp [givenEnum?, firstOption, Fields.value?_cons, Value.ofOption]
    | some name =>
      by_cases empty : name = "" <;>
        simp [givenEnum?, firstOption, Fields.value?_cons, Value.ofOption, Value.nonEmptyText?,
          Option.filter_some, empty]
  unfold payloadEnum
  rw [given]
  by_cases enum : column.type = "enum"
  · rw [if_pos enum]
    rcases wired.linked with linked | ⟨name, link, filled⟩
    · rw [← linked]
      cases link : column.enumName with
      | none => rfl
      | some name => by_cases empty : name = "" <;> simp [Option.filter_some, empty]
    · simp [link, Option.filter_some, filled]
  · rw [if_neg enum]
    cases link : column.enumName with
    | none => rfl
    | some name => exact absurd (column.enumOnly (by simp [link])) enum

theorem decodeColumn_toValue {column : Column} (wired : column.Wired) :
    decodeColumn column.toValue = some column := by
  have link := payloadEnum_toValue wired rfl
  obtain ⟨name, type, options, enumName, only⟩ := column
  simp only at link
  simp [decodeColumn, Column.toValue, payloadFields?, payloadText?, Fields.value?_cons, link]

private theorem filterMap_written {α : Type} {write : α → Value} {read : Value → Option α}
    {items : List α} (each : ∀ item ∈ items, read (write item) = some item) :
    (items.map write).filterMap read = items := by
  induction items with
  | nil => rfl
  | cons item rest ih =>
    obtain ⟨here, later⟩ := List.forall_mem_cons.mp each
    rw [List.map_cons, List.filterMap_cons_some here, ih later]

theorem decodeTable_toValue {table : Table} (wired : table.Wired) :
    decodeTable table.toValue = some table := by
  have columns : (table.columns.map Column.toValue).filterMap decodeColumn = table.columns := by
    exact filterMap_written fun column member => decodeColumn_toValue (wired.columns column member)
  have named := wired.named
  obtain ⟨name, className, held⟩ := table
  simp only at named columns
  subst named
  simp [decodeTable, Table.toValue, payloadFields?, payloadText?, payloadList, Fields.value?_cons,
    Value.listItems, namedTable, columns]

theorem decodeEnum_toValue {enum : EnumType} (wired : enum.Wired) :
    decodeEnum enum.toValue = some enum := by
  have named := wired.named
  obtain ⟨name, className, values⟩ := enum
  simp only at named
  subst named
  refine congrArg (fun texts => some (namedEnum name texts)) (?_ : _ = values)
  exact filterMap_written fun _ _ => rfl

theorem decodeTables_toValue {tables : List Table} (wired : ∀ table ∈ tables, table.Wired) :
    decodeTables (.list (tables.map Table.toValue)) = tables :=
  filterMap_written fun table member => decodeTable_toValue (wired table member)

theorem decodeEnums_toValue {enums : List EnumType} (wired : ∀ enum ∈ enums, enum.Wired) :
    decodeEnums (.list (enums.map EnumType.toValue)) = enums :=
  filterMap_written fun enum member => decodeEnum_toValue (wired enum member)

end Decode

section Extracted

variable {source : Source}

theorem linkedColumn_wired {name type : String} {options : Fields} (json : options.IsJson) :
    (linkedColumn name type options).Wired :=
  ⟨json, .inl rfl⟩

theorem timestampColumns_wired : ∀ column ∈ timestampColumns, column.Wired := by
  have json : Fields.IsJson [("null", .bool false)] := Fields.IsJson.nil.put "null" (.bool false)
  intro column member
  obtain ⟨name, _, rfl⟩ := List.mem_map.mp member
  exact ⟨json, .inl rfl⟩

theorem ColumnFrom.wired {statements : List Value} {column : Column}
    (origin : ColumnFrom source statements column) : column.Wired := by
  cases origin with
  | timestamp member => exact timestampColumns_wired column member
  | call _ found =>
    obtain ⟨_, _, _, merged⟩ := (Declaration.columnStatement_column found).merged
    exact linkedColumn_wired (Options.merged_isJson merged)

theorem extract_wired {tree : Value} {diagnostics : Diagnostics} {schema : Schema}
    (found : extract source tree diagnostics = .ok schema) : schema.Wired := by
  have extracted := extract_origin found
  constructor
  · intro table member
    obtain ⟨visit, _, declared⟩ := extracted.table table member
    cases declared with
    | table _ read => exact ⟨rfl, fun column held => (columnsOfEach_origin read column held).wired⟩
  · intro enum member
    obtain ⟨visit, _, declared⟩ := extracted.enum enum member
    cases declared with
    | enum _ => exact ⟨rfl⟩

end Extracted

section Decoded

private theorem payloadEnum_cases (type : String) (fields options : Fields) :
    payloadEnum type fields options = linkedEnum type options ∨
      ∃ name, payloadEnum type fields options = some name ∧ name ≠ "" := by
  unfold payloadEnum
  split
  · cases given : givenEnum? fields with
    | none => exact .inl rfl
    | some name =>
      obtain ⟨value, _, spelled⟩ := Option.bind_eq_some_iff.mp given
      right
      refine ⟨name, rfl, ?_⟩
      cases value with
      | text characters =>
        simp only [Value.nonEmptyText?] at spelled
        split at spelled
        · cases spelled
        · rename_i filled
          cases spelled
          exact filled
      | _ => cases spelled
  · rename_i other
    left
    rw [linkedEnum, if_neg other]

theorem decodeColumn_wired {payload : Value} {column : Column} (json : payload.IsJson)
    (found : decodeColumn payload = some column) : column.Wired := by
  cases json with
  | @mapping fields distinct each =>
    simp only [decodeColumn, payloadFields?] at found
    split at found
    · cases found
      constructor
      · cases held : Fields.value? fields "options" with
        | none => exact .nil
        | some value =>
          have inner := each _ (Fields.mem_of_value? held)
          cases inner with
          | mapping distinct each => exact ⟨distinct, each⟩
          | _ => exact .nil
      · exact payloadEnum_cases _ _ _
    · cases found
  | _ => cases found

theorem payloadList_isJson {fields : Fields} (each : ∀ field ∈ fields, field.2.IsJson)
    (name : String) : ∀ item ∈ payloadList fields name, item.IsJson := by
  intro item member
  unfold payloadList at member
  cases held : Fields.value? fields name with
  | none =>
    rw [held] at member
    cases member
  | some value =>
    rw [held] at member
    have inner := each _ (Fields.mem_of_value? held)
    cases inner with
    | list items => exact items item member
    | _ => cases member

theorem decodeTable_wired {payload : Value} {table : Table} (json : payload.IsJson)
    (found : decodeTable payload = some table) : table.Wired := by
  cases json with
  | @mapping fields distinct each =>
    simp only [decodeTable, payloadFields?] at found
    obtain ⟨name, _, rfl⟩ := Option.map_eq_some_iff.mp found
    refine ⟨rfl, ?_⟩
    intro column member
    obtain ⟨item, present, decoded⟩ := List.mem_filterMap.mp member
    exact decodeColumn_wired (payloadList_isJson each "columns" item present) decoded
  | _ => cases found

theorem decodeEnum_wired {payload : Value} {enum : EnumType}
    (found : decodeEnum payload = some enum) : enum.Wired := by
  unfold decodeEnum at found
  split at found
  · cases found
  · obtain ⟨name, _, rfl⟩ := Option.map_eq_some_iff.mp found
    exact ⟨rfl⟩

theorem decode_wired {tables : Value} (json : tables.IsJson) (enums : Value)
    (diagnostics : Diagnostics) :
    Schema.Wired ⟨decodeTables tables, decodeEnums enums, diagnostics⟩ := by
  constructor
  · intro table member
    obtain ⟨item, present, decoded⟩ := List.mem_filterMap.mp member
    cases json with
    | list each => exact decodeTable_wired (each item present) decoded
    | _ => cases present
  · intro enum member
    obtain ⟨item, _, decoded⟩ := List.mem_filterMap.mp member
    exact decodeEnum_wired decoded

end Decoded

end Schema

section Written

open Value (IsJson)

theorem Value.texts_isJson (items : List String) : (Value.texts items).IsJson := by
  refine .list fun item member => ?_
  obtain ⟨characters, _, rfl⟩ := List.mem_map.mp member
  exact .text characters

theorem Value.ofOption_isJson (text : Option String) : (Value.ofOption text).IsJson := by
  cases text with
  | none => exact .null
  | some characters => exact .text characters

private theorem written_list {α : Type} {write : α → Value} {items : List α}
    (each : ∀ item ∈ items, (write item).IsJson) : (Value.list (items.map write)).IsJson := by
  refine .list fun value member => ?_
  obtain ⟨item, present, rfl⟩ := List.mem_map.mp member
  exact each item present

theorem Column.toValue_isJson {column : Column} (wired : column.Wired) : column.toValue.IsJson := by
  refine .mapping (by simp [Fields.Distinct, Fields.names]) ?_
  simp only [List.forall_mem_cons, List.not_mem_nil, false_imp_iff, implies_true, and_true]
  exact ⟨.text _, .text _, .mapping wired.json.distinct wired.json.each, Value.ofOption_isJson _,
    .bool _⟩

theorem Table.toValue_isJson {table : Table} (wired : table.Wired) : table.toValue.IsJson := by
  refine .mapping (by simp [Fields.Distinct, Fields.names]) ?_
  simp only [List.forall_mem_cons, List.not_mem_nil, false_imp_iff, implies_true, and_true]
  exact ⟨.text _, .text _,
    written_list fun column member => Column.toValue_isJson (wired.columns column member),
    Value.texts_isJson _⟩

theorem EnumType.toValue_isJson (enum : EnumType) : enum.toValue.IsJson := by
  refine .mapping (by simp [Fields.Distinct, Fields.names]) ?_
  simp only [List.forall_mem_cons, List.not_mem_nil, false_imp_iff, implies_true, and_true]
  exact ⟨.text _, .text _, Value.texts_isJson _⟩

theorem Diagnostics.toValue_isJson (diagnostics : Diagnostics) : diagnostics.toValue.IsJson := by
  refine .mapping (by simp [Fields.Distinct, Fields.names]) ?_
  simp only [List.forall_mem_cons, List.not_mem_nil, false_imp_iff, implies_true, and_true]
  exact ⟨Value.texts_isJson _, Value.texts_isJson _, .bool _⟩

theorem Schema.toValue_isJson {schema : Schema} (wired : schema.Wired) : schema.toValue.IsJson := by
  refine .mapping (by simp [Fields.Distinct, Fields.names]) ?_
  simp only [List.forall_mem_cons, List.not_mem_nil, false_imp_iff, implies_true, and_true]
  exact ⟨written_list fun table member => Table.toValue_isJson (wired.tables table member),
    written_list fun enum _ => EnumType.toValue_isJson enum, Diagnostics.toValue_isJson _⟩

end Written

namespace Schema

/-- A schema as readers give it: what a tree declares, or what JSON payloads decode to. -/
inductive Produced : Schema → Prop where
  | extracted {source : Source} {tree : Value} {diagnostics : Diagnostics} {schema : Schema}
    (found : extract source tree diagnostics = .ok schema) : Produced schema
  | decoded {tables enums : Value} (tablesJson : tables.IsJson) (enumsJson : enums.IsJson)
    (diagnostics : Diagnostics) :
    Produced ⟨decodeTables tables, decodeEnums enums, diagnostics⟩

theorem Produced.wired {schema : Schema} (produced : Produced schema) : schema.Wired := by
  cases produced with
  | extracted found => exact extract_wired found
  | decoded tablesJson _ diagnostics => exact decode_wired tablesJson _ diagnostics

/-- The value under a name of a payload. -/
def payloadField (payload : Value) (name : String) : Value :=
  ((payloadFields? payload).bind fun fields => Fields.value? fields name).getD .null

/-- The tables and enums that the wire form of a schema decodes to. -/
def reread (schema : Schema) : Schema :=
  ⟨decodeTables (payloadField schema.toValue "tables"),
    decodeEnums (payloadField schema.toValue "enums"), schema.diagnostics⟩

/-- A fallback parser that prints the wire form of a schema is read as that schema. -/
theorem schemaOfReport_produced {schema : Schema} (produced : Produced schema) {fields : Fields}
    (written : schema.toValue = .mapping fields) (fallback : Fallback) :
    fallback.schemaOfReport fields 0 =
      .ok ⟨schema.tables, schema.enums, ⟨[fallback.usageWarning], []⟩⟩ := by
  have wired := produced.wired
  cases written
  have tables := decodeTables_toValue wired.tables
  have enums := decodeEnums_toValue wired.enums
  simp [Fallback.schemaOfReport, payloadList, Fields.value?_cons, messagesEach, tables, enums, bind,
    Except.bind, pure, Except.pure]

/-- A payload with a column that names no enum but has an option that does, and an entry that is no
column. -/
def moodPayload : Value :=
  .list [.mapping [("name", .text "users"), ("columns", .list [
    .mapping [("name", .text "mood"), ("type", .text "enum"), ("enumName", .text ""),
      ("options", .mapping [("enum_type", .text "mood_kind")])],
    .int 3])]]

private theorem moodPayload_isJson : moodPayload.IsJson := by
  have options : (Value.mapping [("enum_type", .text "mood_kind")]).IsJson := by
    refine .mapping (by simp [Fields.Distinct, Fields.names]) ?_
    simp [Value.IsJson.text]
  have column : (Value.mapping [("name", .text "mood"), ("type", .text "enum"),
      ("enumName", .text ""), ("options", .mapping [("enum_type", .text "mood_kind")])]).IsJson := by
    refine .mapping (by simp [Fields.Distinct, Fields.names]) ?_
    simp [Value.IsJson.text, options]
  refine .list fun table member => ?_
  rw [List.mem_singleton.mp member]
  refine .mapping (by simp [Fields.Distinct, Fields.names]) ?_
  simp only [List.forall_mem_cons, List.not_mem_nil, false_imp_iff, implies_true, and_true]
  refine ⟨.text _, .list ?_⟩
  simp [column, Value.IsJson.int]

end Schema

end RailSpec
