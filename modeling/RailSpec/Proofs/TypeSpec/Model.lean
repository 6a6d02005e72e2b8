import RailSpec.Proofs.Fields
import RailSpec.Proofs.Result
import RailSpec.Proofs.TypeSpec.Line

/-!
Models read back from their text. The lines of a model are put together to properties, each with the
documentation in front of it, and these are the columns of the table as far as the text shows them.
-/

namespace RailSpec.TypeSpec

/-- A value as documentation tells it, empty for one that cannot be written. -/
def spelling (value : Value) : String :=
  value.spelled.toOption.getD ""

/-- Those of the named options that are there, with what documentation tells of them. -/
def told (options : Fields) (names : List String) : List (String × String) :=
  names.filterMap fun name => (Fields.value? options name).map fun value => (name, spelling value)

theorem told_cons (options : Fields) (name : String) (rest : List String) :
    told options (name :: rest) =
      ((Fields.value? options name).map fun value => (name, spelling value)).toList ++
        told options rest := by
  cases found : Fields.value? options name <;> simp [told, found]

theorem lookup_told (options : Fields) (names : List String) (key : String) :
    (told options names).lookup key =
      if key ∈ names then (Fields.value? options key).map spelling else none := by
  induction names with
  | nil => rfl
  | cons name rest ih =>
    rw [told_cons]
    by_cases same : name = key
    · subst same
      cases found : Fields.value? options name with
      | none => simp [ih, found]
      | some value => simp
    · have apart : (key == name) = false := by simpa using Ne.symm same
      cases found : Fields.value? options name <;> simp [List.lookup_cons, apart, ih, Ne.symm same]

/-- A column as its lines show it: what is told of its options, and how it is declared. -/
structure Property where
  docs : List (String × String)
  name : String
  required : Bool
  type : String
  deriving DecidableEq, Repr

namespace Property

def ofColumn (column : Column) : Property :=
  ⟨told column.options documentedOptions, column.name, column.isRequired, columnType column⟩

def lines (shown : Property) : List ModelLine :=
  shown.docs.map (fun doc => .doc doc.1 doc.2) ++ [.property shown.name shown.required shown.type]

/-- Puts documentation before the first of the properties. -/
def documented (key value : String) : List Property → List Property
  | [] => []
  | first :: others => { first with docs := (key, value) :: first.docs } :: others

/-- Puts lines together to properties: documentation belongs to the next property. -/
def ofLines : List ModelLine → List Property
  | [] => []
  | .doc key value :: rest => documented key value (ofLines rest)
  | .property name required type :: rest => ⟨[], name, required, type⟩ :: ofLines rest

theorem ofLines_lines (shown : Property) (rest : List ModelLine) :
    ofLines (shown.lines ++ rest) = shown :: ofLines rest := by
  obtain ⟨docs, name, required, type⟩ := shown
  induction docs with
  | nil => rfl
  | cons doc others ih =>
    change documented doc.1 doc.2
      (ofLines (lines ⟨others, name, required, type⟩ ++ rest)) = _
    rw [ih]
    rfl

theorem ofLines_flatMap (properties : List Property) :
    ofLines (properties.flatMap lines) = properties := by
  induction properties with
  | nil => rfl
  | cons first rest ih => rw [List.flatMap_cons, ofLines_lines, ih]

end Property

/-- A column of which everything that is documented can be written. -/
def IsTold (column : Column) : Prop :=
  ∀ name ∈ documentedOptions, ∀ value ∈ Fields.value? column.options name,
    value.spelled = .ok (spelling value)

section Rendered

variable {column : Column} {columns : List Column} {lines : List String}

theorem docLines_told {options : Fields} {names : List String}
    (done : docLines options names = .ok lines) :
    lines = (told options names).map (fun doc => docLine doc.1 doc.2) ∧
      ∀ name ∈ names, ∀ value ∈ Fields.value? options name,
        value.spelled = .ok (spelling value) := by
  induction names generalizing lines with
  | nil =>
    cases done
    exact ⟨rfl, List.forall_mem_nil _⟩
  | cons name rest ih =>
    rw [docLines] at done
    rw [told_cons, List.forall_mem_cons]
    split at done
    · rename_i absent
      obtain ⟨same, spelled⟩ := ih done
      rw [absent]
      exact ⟨same, nofun, spelled⟩
    · rename_i value found
      obtain ⟨text, here, more⟩ := bind_ok done
      obtain ⟨others, later, finished⟩ := bind_ok more
      cases finished
      obtain ⟨rfl, spelled⟩ := ih later
      have told : value.spelled = .ok (spelling value) := by
        rw [spelling, here]
        rfl
      -- From here on the line's text is the spelling itself.
      cases here.symm.trans told
      rw [found]
      refine ⟨rfl, ?_, spelled⟩
      rintro other ⟨⟩
      exact told

theorem columnLines_told (done : columnLines column = .ok lines) :
    lines = (Property.ofColumn column).lines.map ModelLine.text ∧ IsTold column := by
  obtain ⟨docs, documented, rfl⟩ := map_ok done
  obtain ⟨rfl, spelled⟩ := docLines_told documented
  refine ⟨?_, spelled⟩
  rw [Property.lines, List.map_append, List.map_map]
  rfl

theorem columnsLines_told (done : columnsLines columns = .ok lines) :
    lines = ((columns.map Property.ofColumn).flatMap Property.lines).map ModelLine.text ∧
      ∀ column ∈ columns, IsTold column := by
  induction columns generalizing lines with
  | nil =>
    cases done
    exact ⟨rfl, List.forall_mem_nil _⟩
  | cons column rest ih =>
    obtain ⟨here, rendered, more⟩ := bind_ok done
    obtain ⟨others, later, finished⟩ := bind_ok more
    cases finished
    obtain ⟨rfl, first⟩ := columnLines_told rendered
    obtain ⟨rfl, each⟩ := ih later
    refine ⟨?_, List.forall_mem_cons.mpr ⟨first, each⟩⟩
    rw [List.map_cons, List.flatMap_cons, List.map_append]

end Rendered

/-- A table whose own name and whose names of columns and enums are words. -/
structure HasWords (table : Table) : Prop where
  className : IsWord table.className
  names : ∀ column ∈ table.columns, IsWord column.name
  enums : ∀ column ∈ table.columns, ∀ name ∈ column.enumName, IsWord name

section Reading

variable {table : Table} {text : String}

theorem documentedOptions_plain : ∀ key ∈ documentedOptions, ':' ∉ key.toList := by
  decide

/-- The types that columns have besides the enums. -/
def knownTypes : List String :=
  "unknown" :: typeTable.map Prod.snd

theorem tableType_known (type : String) : tableType type ∈ knownTypes := by
  rw [tableType]
  cases found : typeTable.lookup (Text.lowered type) with
  | none => exact List.mem_cons_self
  | some known =>
    obtain ⟨front, behind, split, _⟩ := List.lookup_eq_some_iff.mp found
    have entry : (Text.lowered type, known) ∈ typeTable := split ▸ List.mem_append_cons_self
    exact List.mem_cons_of_mem _ (List.mem_map_of_mem entry)

/-- The type of a column is its enum or one of the known types. -/
theorem columnType_known (column : Column) :
    columnType column ∈ column.enumName ∨ columnType column ∈ knownTypes := by
  rw [columnType]
  split_ifs
  · cases linked : column.enumName.filter (· ≠ "") with
    | none => exact .inr (by decide)
    | some name => exact .inl (Option.filter_eq_some_iff.mp linked).1
  · exact .inr (by decide)
  · exact .inr (by decide)
  · exact .inr (tableType_known _)

/-- No type ends its line early. -/
theorem columnType_plain {column : Column} (enums : ∀ name ∈ column.enumName, IsWord name) :
    ';' ∉ (columnType column).toList := by
  rcases columnType_known column with linked | known
  · intro member
    exact absurd ((enums _ linked).plain ';' member) (by decide)
  · have plain : ∀ type ∈ knownTypes, ';' ∉ type.toList := by decide
    exact plain _ known

theorem Property.lines_plain {column : Column} (word : IsWord column.name)
    (enums : ∀ name ∈ column.enumName, IsWord name) :
    ∀ line ∈ (ofColumn column).lines, line.IsPlain := by
  intro line member
  rcases List.mem_append.mp member with documentation | declares
  · obtain ⟨doc, within, rfl⟩ := List.mem_map.mp documentation
    obtain ⟨name, listed, found⟩ := List.mem_filterMap.mp within
    obtain ⟨value, -, rfl⟩ := Option.map_eq_some_iff.mp found
    exact documentedOptions_plain name listed
  · rw [List.mem_singleton.mp declares]
    exact ⟨word, columnType_plain enums⟩

/-- Reads a model as its name and its properties. -/
def readModel (text : String) : Option (String × List Property) :=
  (readDeclaration ModelLine.read "model" text).map fun (name, lines) =>
    (name, Property.ofLines lines)

/-- A model of words is read back from its text as its name and its columns. -/
theorem readModel_renderModel (words : HasWords table) (done : renderModel table = .ok text) :
    readModel text = some (table.className, table.columns.map Property.ofColumn) ∧
      ∀ column ∈ table.columns, IsTold column := by
  obtain ⟨lines, rendered, rfl⟩ := map_ok done
  obtain ⟨rfl, told⟩ := columnsLines_told rendered
  refine ⟨?_, told⟩
  have plain : ∀ c ∈ table.className.toList, c ≠ ' ' := by
    rintro c member rfl
    exact absurd (words.className.plain ' ' member) (by decide)
  have reads : ∀ line ∈ (table.columns.map Property.ofColumn).flatMap Property.lines, ∀ rest,
      ModelLine.read (indentedLine line.text ++ rest) = some (line, rest) := by
    intro line member rest
    obtain ⟨shown, among, within⟩ := List.mem_flatMap.mp member
    obtain ⟨column, listed, rfl⟩ := List.mem_map.mp among
    exact ModelLine.read_text (Property.lines_plain (words.names column listed)
      (words.enums column listed) line within) rest
  rw [readModel, readDeclaration_declaration plain ModelLine.text_filled reads]
  exact congrArg (fun properties => some (table.className, properties))
    (Property.ofLines_flatMap _)

end Reading

/-- Two columns that a model does not tell apart: one name, one type, both or neither required, and
the same documentation. -/
structure SameShown (column other : Column) : Prop where
  name : column.name = other.name
  required : column.isRequired = other.isRequired
  type : columnType column = columnType other
  documented : ∀ key ∈ documentedOptions, (Fields.value? column.options key).map Value.spelled =
    (Fields.value? other.options key).map Value.spelled

theorem IsTold.spelled {column : Column} (told : IsTold column) {key : String}
    (listed : key ∈ documentedOptions) :
    (Fields.value? column.options key).map Value.spelled =
      ((Property.ofColumn column).docs.lookup key).map .ok := by
  rw [Property.ofColumn, lookup_told, if_pos listed, Option.map_map]
  cases found : Fields.value? column.options key with
  | none => rfl
  | some value => exact congrArg some (told key listed value found)

theorem SameShown.of_property {column other : Column} (told : IsTold column)
    (alsoTold : IsTold other) (same : Property.ofColumn column = Property.ofColumn other) :
    SameShown column other where
  name := congrArg Property.name same
  required := congrArg Property.required same
  type := congrArg Property.type same
  documented := by
    intro key listed
    rw [told.spelled listed, alsoTold.spelled listed, same]

theorem sameShown_each {columns others : List Column} (told : ∀ column ∈ columns, IsTold column)
    (alsoTold : ∀ column ∈ others, IsTold column)
    (same : columns.map Property.ofColumn = others.map Property.ofColumn) :
    List.Forall₂ SameShown columns others := by
  induction columns generalizing others with
  | nil =>
    rw [List.map_eq_nil_iff.mp same.symm]
    exact .nil
  | cons column rest ih =>
    cases others with
    | nil => cases same
    | cons other behind =>
      obtain ⟨here, later⟩ := List.cons.inj same
      obtain ⟨first, each⟩ := List.forall_mem_cons.mp told
      obtain ⟨alsoFirst, alsoEach⟩ := List.forall_mem_cons.mp alsoTold
      exact .cons (.of_property first alsoFirst here) (ih each alsoEach later)

/-- Two tables with one model have the same type name, and their columns are the same one by one as
far as a model shows them. -/
theorem renderModel_unambiguous {first second : Table} {text : String} (words : HasWords first)
    (alsoWords : HasWords second) (rendered : renderModel first = .ok text)
    (alsoRendered : renderModel second = .ok text) :
    first.className = second.className ∧
      List.Forall₂ SameShown first.columns second.columns := by
  obtain ⟨reads, told⟩ := readModel_renderModel words rendered
  obtain ⟨alsoReads, alsoTold⟩ := readModel_renderModel alsoWords alsoRendered
  obtain ⟨named, shown⟩ := Prod.mk.inj (Option.some.inj (reads.symm.trans alsoReads))
  exact ⟨named, sameShown_each told alsoTold shown⟩

/-- A table with a default that holds a quote, a line feed and a brace. -/
def drafts : Table :=
  ⟨"drafts", "Posts", [{
    name := "body",
    type := "string",
    options := [("default", .list [.text "a\"", .text "b\n\x7d"]), ("limit", .null)] }]⟩

/-- Another table with the same model. -/
def notes : Table :=
  ⟨"notes", "Posts", [{
    name := "body",
    type := "TEXT",
    options := [("limit", .text "nil"), ("null", .null), ("default", .text "a\",b\n\x7d")] }]⟩

theorem drafts_words : HasWords drafts where
  className := .of_all (by decide) (by decide)
  names := List.forall_mem_singleton.mpr (.of_all (by decide) (by decide))
  enums := List.forall_mem_singleton.mpr nofun

theorem notes_words : HasWords notes where
  className := .of_all (by decide) (by decide)
  names := List.forall_mem_singleton.mpr (.of_all (by decide) (by decide))
  enums := List.forall_mem_singleton.mpr nofun

/-- The model of both. -/
def postsModel : String :=
  Text.unlines ["model Posts \x7b", "  @doc(\"default: a\\\",b", "\x7d\")", "  @doc(\"limit: nil\")",
    "  body?: string;", "\x7d"]

theorem renderModel_unambiguous_drafts :
    renderModel drafts = .ok postsModel ∧ renderModel notes = .ok postsModel ∧
      List.Forall₂ SameShown drafts.columns notes.columns := by
  have rendered : renderModel drafts = .ok postsModel := by rfl
  have alsoRendered : renderModel notes = .ok postsModel := by rfl
  obtain ⟨-, shown⟩ := renderModel_unambiguous drafts_words notes_words rendered alsoRendered
  exact ⟨rendered, alsoRendered, shown⟩

end RailSpec.TypeSpec
