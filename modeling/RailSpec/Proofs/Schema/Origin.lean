import RailSpec.Proofs.Result
import RailSpec.Schema.Extract

/-!
Where the records of a schema come from. Every table and every enum is what one visited node
declares, and every column what one statement in the table's block does, so that what is to hold of
all records is shown of single declarations.
-/

namespace RailSpec

namespace Value

variable {value : Value} {text : String}

theorem nonEmptyText?_some (found : value.nonEmptyText? = some text) :
    value = .text text ∧ text ≠ "" := by
  cases value with
  | text characters =>
    rw [nonEmptyText?] at found
    split at found
    · cases found
    · rename_i filled
      cases found
      exact ⟨rfl, filled⟩
  | _ => cases found

end Value

namespace Declaration

variable {source : Source} {call statement : Value} {node : Fields} {parent : Option Fields}
  {name type : String} {options : Fields}

theorem firstName_filled (found : firstName source call = .ok (some name)) : name ≠ "" := by
  unfold firstName at found
  split at found
  · cases found
  · obtain ⟨literal, _, text⟩ := map_ok found
    exact (Value.nonEmptyText?_some text).2

theorem enumValues_filled {values : List String} (found : enumValues source call = .ok values) :
    "" ∉ values := by
  intro member
  unfold enumValues Literal.arrayTexts at found
  split at found
  · split at found
    · obtain ⟨literals, _, rfl⟩ := map_ok found
      obtain ⟨literal, _, text⟩ := List.mem_filterMap.mp member
      exact (Value.nonEmptyText?_some text).2 rfl
    · cases found
      cases member
  · cases found
    cases member

theorem tableCall_named {table : TableCall} (found : tableCall source node parent = .ok (some table)) :
    table.name ≠ "" ∧ table.block = node := by
  unfold tableCall at found
  split at found
  · split at found
    · cases found
    · obtain ⟨method, _, found⟩ := bind_ok found
      split at found
      · obtain ⟨given, named, made⟩ := bind_ok found
        obtain ⟨name, rfl, rfl⟩ := Option.map_eq_some_iff.mp (Except.ok.inj made)
        exact ⟨firstName_filled named, rfl⟩
      · cases found
  · cases found

theorem enumCall_named {enum : EnumCall} (found : enumCall source node = .ok (some enum)) :
    enum.name ≠ "" ∧ "" ∉ enum.values := by
  unfold enumCall at found
  split at found
  · obtain ⟨method, _, found⟩ := bind_ok found
    split at found
    · obtain ⟨given, named, found⟩ := bind_ok found
      split at found
      · obtain ⟨values, listed, made⟩ := bind_ok found
        cases made
        exact ⟨firstName_filled named, enumValues_filled listed⟩
      · cases found
    · cases found
  · cases found

/-- A column has the name in the first argument of its call and the options in the others. -/
structure ColumnCall (source : Source) (statement : Value) (name : String) (options : Fields) :
    Prop where
  named : ∃ given, firstName source statement = .ok (some given) ∧ name = columnName given
  merged : ∃ first rest, Call.arguments statement = first :: rest ∧
    Options.merged source rest = .ok options

theorem callStatement_column
    (found : callStatement source statement = .ok (some (.column name type options))) :
    ColumnCall source statement name options := by
  unfold callStatement at found
  obtain ⟨method, _, found⟩ := bind_ok found
  split at found
  · cases found
  · split at found
    · cases found
    · split at found
      · cases found
      · rename_i first rest arguments
        obtain ⟨literal, resolved, found⟩ := bind_ok found
        split at found
        · cases found
        · rename_i given text
          obtain ⟨held, merged, made⟩ := bind_ok found
          cases made
          refine ⟨⟨given, ?_, rfl⟩, first, rest, arguments, merged⟩
          rw [firstName, arguments]
          dsimp only
          rw [resolved]
          exact congrArg Except.ok text

theorem wordStatement_column :
    wordStatement source statement ≠ .ok (some (.column name type options)) := by
  intro found
  unfold wordStatement at found
  split at found
  · cases found
  · split at found
    · cases found
    · cases found
  all_goals cases found

theorem columnStatement_column
    (found : columnStatement source statement = .ok (some (.column name type options))) :
    ColumnCall source statement name options := by
  unfold columnStatement at found
  split at found
  · cases found
  · split at found
    · exact absurd found wordStatement_column
    · split at found
      · exact callStatement_column (mapError_ok found)
      · cases found

end Declaration

namespace Schema

open Declaration (columnStatement tableCall enumCall)

variable {source : Source}

/-- A column as a statement of a block gives it. -/
inductive ColumnFrom (source : Source) (statements : List Value) : Column → Prop where
  | timestamp {column : Column} (member : column ∈ timestampColumns) :
    ColumnFrom source statements column
  | call {statement : Value} {name type : String} {options : Fields} (member : statement ∈ statements)
    (found : columnStatement source statement = .ok (some (.column name type options))) :
    ColumnFrom source statements (linkedColumn name type options)

theorem ColumnFrom.mono {statements more : List Value} {column : Column}
    (origin : ColumnFrom source statements column) (wider : statements ⊆ more) :
    ColumnFrom source more column := by
  cases origin with
  | timestamp member => exact .timestamp member
  | call member found => exact .call (wider member) found

theorem columnsOfEach_origin {statements : List Value} {columns : List Column}
    (found : columnsOfEach source statements = .ok columns) :
    ∀ column ∈ columns, ColumnFrom source statements column := by
  induction statements generalizing columns with
  | nil =>
    cases found
    exact List.forall_mem_nil _
  | cons statement rest ih =>
    rw [columnsOfEach] at found
    obtain ⟨declared, here, found⟩ := bind_ok found
    obtain ⟨others, later, last⟩ := bind_ok found
    cases last
    intro column member
    rcases List.mem_append.mp member with first | other
    · cases declared with
      | none => cases first
      | some declared =>
        cases declared with
        | timestamps => exact .timestamp first
        | column name type options =>
          rw [List.mem_singleton.mp first]
          exact .call (List.mem_cons_self ..) here
    · exact (ih later column other).mono (List.subset_cons_self ..)

/-- A record as a visited node declares it. -/
inductive DeclaredBy (source : Source) (visit : Node.Visit) : Declared → Prop where
  | table {call : Declaration.TableCall} {columns : List Column}
    (called : tableCall source visit.fields visit.parent = .ok (some call))
    (read : columnsOfEach source (Call.statements (.mapping call.block)) = .ok columns) :
    DeclaredBy source visit (.table (namedTable call.name columns))
  | enum {call : Declaration.EnumCall}
    (called : enumCall source visit.fields = .ok (some call)) :
    DeclaredBy source visit (.enum (namedEnum call.name call.values))

section DeclaredAt

variable {visit : Node.Visit}

theorem declaredAt_fault {fault : Number.DigitFault}
    (called : tableCall source visit.fields visit.parent = .error fault) :
    declaredAt source visit = .error (.digits fault) := by
  rw [declaredAt, called]
  rfl

theorem declaredAt_columns {call : Declaration.TableCall}
    (called : tableCall source visit.fields visit.parent = .ok (some call)) :
    declaredAt source visit = (columnsOfEach source (Call.statements (.mapping call.block))).map
      fun columns => some (.table (namedTable call.name columns)) := by
  rw [declaredAt, called]
  change (columnsOfEach source (Call.statements (.mapping call.block)) >>= fun columns =>
    .ok (some (Declared.table (namedTable call.name columns)))) = _
  cases columnsOfEach source (Call.statements (.mapping call.block)) <;> rfl

theorem declaredAt_enum (called : tableCall source visit.fields visit.parent = .ok none) :
    declaredAt source visit = ((enumCall source visit.fields).mapError .digits).map
      (Option.map fun call => .enum (namedEnum call.name call.values)) := by
  rw [declaredAt, called]
  cases enumCall source visit.fields with
  | error fault => rfl
  | ok found => cases found <;> rfl

end DeclaredAt

theorem declaredAt_origin {visit : Node.Visit} {declared : Declared}
    (found : declaredAt source visit = .ok (some declared)) : DeclaredBy source visit declared := by
  unfold declaredAt at found
  obtain ⟨table, called, found⟩ := bind_ok found
  cases table with
  | some call =>
    obtain ⟨columns, read, last⟩ := bind_ok found
    cases last
    exact .table (mapError_ok called) read
  | none =>
    obtain ⟨enum, called, found⟩ := bind_ok found
    cases enum with
    | none => cases found
    | some call =>
      cases found
      exact .enum (mapError_ok called)

theorem declaredIn_origin {met : List Node.Visit} {found : List Declared}
    (done : declaredIn source met = .ok found) :
    ∀ declared ∈ found, ∃ visit ∈ met, DeclaredBy source visit declared := by
  induction met generalizing found with
  | nil =>
    cases done
    exact List.forall_mem_nil _
  | cons visit rest ih =>
    rw [declaredIn] at done
    obtain ⟨first, here, done⟩ := bind_ok done
    obtain ⟨others, later, last⟩ := bind_ok done
    cases last
    intro declared member
    rcases List.mem_append.mp member with early | late
    · cases first with
      | none => cases early
      | some first =>
        rw [List.mem_singleton.mp early]
        exact ⟨visit, List.mem_cons_self .., declaredAt_origin here⟩
    · obtain ⟨origin, met, by'⟩ := ih later declared late
      exact ⟨origin, List.mem_cons_of_mem _ met, by'⟩

/-- The records of an extracted schema, each with the visit that declares it. -/
structure Extracted (source : Source) (tree : Value) (schema : Schema) : Prop where
  table : ∀ table ∈ schema.tables,
    ∃ visit ∈ Node.walk tree, DeclaredBy source visit (.table table)
  enum : ∀ enum ∈ schema.enums,
    ∃ visit ∈ Node.walk tree, DeclaredBy source visit (.enum enum)

theorem extract_origin {tree : Value} {diagnostics : Diagnostics} {schema : Schema}
    (found : extract source tree diagnostics = .ok schema) : Extracted source tree schema := by
  unfold extract at found
  obtain ⟨declared, here, last⟩ := bind_ok found
  cases last
  constructor
  · intro table member
    obtain ⟨record, present, same⟩ := List.mem_filterMap.mp member
    cases record with
    | table held =>
      cases same
      exact declaredIn_origin here _ present
    | enum held => cases same
  · intro enum member
    obtain ⟨record, present, same⟩ := List.mem_filterMap.mp member
    cases record with
    | table held => cases same
    | enum held =>
      cases same
      exact declaredIn_origin here _ present

/-- A column of an extracted table comes from a statement in the block of a visited node. -/
theorem Extracted.column {tree : Value} {schema : Schema} (extracted : Extracted source tree schema)
    {table : Table} (member : table ∈ schema.tables) {column : Column}
    (held : column ∈ table.columns) :
    ∃ visit ∈ Node.walk tree, ColumnFrom source (Call.statements (.mapping visit.fields)) column := by
  obtain ⟨visit, met, declared⟩ := extracted.table table member
  cases declared with
  | table called read =>
    refine ⟨visit, met, ?_⟩
    rw [← (Declaration.tableCall_named called).2]
    exact columnsOfEach_origin read column held

end Schema

end RailSpec
