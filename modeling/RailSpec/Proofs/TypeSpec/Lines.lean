import RailSpec.Proofs.TypeSpec.Enum
import RailSpec.Proofs.TypeSpec.Model
import RailSpec.Proofs.TypeSpec.Render
import RailSpec.Proofs.Value.LineFeed

/-!
Lines of declarations. A declaration has one line for its head, one for each member and one for its
brace, and one more for every line feed in what it quotes: quotes are escaped, line feeds are not.
-/

namespace RailSpec.TypeSpec

/-- A table none of whose names has a line feed. -/
structure HasSingleNames (table : Table) : Prop where
  className : Text.lineFeeds table.className = 0
  names : ∀ column ∈ table.columns, Text.lineFeeds column.name = 0
  enums : ∀ column ∈ table.columns, ∀ name ∈ column.enumName, Text.lineFeeds name = 0

/-- Line feeds in the lines of a declaration make further lines. -/
theorem length_declaration {keyword name : String} (plain : Text.lineFeeds keyword = 0)
    (single : Text.lineFeeds name = 0) (members : List String) :
    (Text.lines (declaration keyword name members)).length =
      2 + members.length + (members.map Text.lineFeeds).sum := by
  have opening : Text.lineFeeds " " = 0 := rfl
  have brace : Text.lineFeeds " \x7b" = 0 := rfl
  have closing : Text.lineFeeds "\x7d" = 0 := rfl
  have indented : (Text.indentLines members 1 2).map Text.lineFeeds = members.map Text.lineFeeds := by
    rw [Text.indentLines, List.map_map]
    exact List.map_congr_left fun line _ => Text.lineFeeds_indentLine _ line
  have length : (Text.indentLines members 1 2).length = members.length :=
    List.length_map _
  have every := Text.lineFeeds_unlines (List.cons_ne_nil (keyword ++ " " ++ name ++ " \x7b")
    (Text.indentLines members 1 2 ++ ["\x7d"]))
  rw [Text.length_lines, declaration, List.cons_append, every]
  simp only [List.map_cons, List.map_append, List.sum_cons, List.sum_append, List.length_cons,
    List.length_append, Text.lineFeeds_append, indented, length, plain, single, opening, brace,
    closing, List.map_nil, List.sum_nil, List.length_nil]
  omega

theorem lineFeeds_columnType {column : Column}
    (enums : ∀ name ∈ column.enumName, Text.lineFeeds name = 0) :
    Text.lineFeeds (columnType column) = 0 := by
  rcases columnType_known column with linked | known
  · exact enums _ linked
  · have plain : ∀ type ∈ knownTypes, Text.lineFeeds type = 0 := by decide
    exact plain _ known

theorem lineFeeds_docLine {key : String} (listed : key ∈ documentedOptions) (value : String) :
    Text.lineFeeds (docLine key value) = Text.lineFeeds value := by
  have plain : ∀ key ∈ documentedOptions, Text.lineFeeds key = 0 := by decide
  have opening : Text.lineFeeds "@doc(" = 0 := rfl
  have colon : Text.lineFeeds ": " = 0 := rfl
  have closing : Text.lineFeeds ")" = 0 := rfl
  simp [docLine, Text.lineFeeds_doubleQuoted, plain key listed, opening, colon, closing]

section Model

variable {table : Table} {column : Column} {columns : List Column} {text : String}

/-- The lines of a column are its documentation, with the line feeds of what it tells, and its
declaration, with none. -/
theorem lineFeeds_column (told : IsTold column) (name : Text.lineFeeds column.name = 0)
    (enums : ∀ name ∈ column.enumName, Text.lineFeeds name = 0) :
    ((Property.ofColumn column).lines.map ModelLine.text).map Text.lineFeeds =
      (toldValues column).map Value.lineFeeds ++ [0] := by
  have documentation : (TypeSpec.told column.options documentedOptions).map
      (Text.lineFeeds ∘ ModelLine.text ∘ fun doc => .doc doc.1 doc.2) =
        (toldValues column).map Value.lineFeeds := by
    rw [TypeSpec.told, toldValues, List.map_filterMap, List.map_filterMap]
    apply List.filterMap_congr
    intro key listed
    cases found : Fields.value? column.options key with
    | none => rfl
    | some value =>
      have spelled := Value.lineFeeds_spelled (told key listed value found)
      simp [ModelLine.text, lineFeeds_docLine listed, spelled]
  have declared :
      Text.lineFeeds (ModelLine.property column.name column.isRequired (columnType column)).text =
        0 := by
    have mark : Text.lineFeeds (if column.isRequired then "" else "?") = 0 := by
      split <;> rfl
    have colon : Text.lineFeeds ": " = 0 := rfl
    have semicolon : Text.lineFeeds ";" = 0 := rfl
    simp [ModelLine.text, name, lineFeeds_columnType enums, mark, colon, semicolon]
  simp only [Property.lines, Property.ofColumn, List.map_append, List.map_map, documentation,
    List.map_singleton, declared]

theorem lineFeeds_columns (told : ∀ column ∈ columns, IsTold column)
    (names : ∀ column ∈ columns, Text.lineFeeds column.name = 0)
    (enums : ∀ column ∈ columns, ∀ name ∈ column.enumName, Text.lineFeeds name = 0) :
    (((columns.map Property.ofColumn).flatMap Property.lines).map ModelLine.text).map
        Text.lineFeeds =
      columns.flatMap fun column => (toldValues column).map Value.lineFeeds ++ [0] := by
  simp only [List.flatMap_map, List.map_flatMap]
  apply List.flatMap_congr
  intro column member
  exact lineFeeds_column (told column member) (names column member) (enums column member)

/-- A column adds to the values that are told of it the line of its declaration. -/
theorem lineFeeds_total (columns : List Column) :
    (columns.flatMap fun column => (toldValues column).map Value.lineFeeds ++ [0]).length =
        columns.length + (columns.flatMap toldValues).length ∧
      (columns.flatMap fun column => (toldValues column).map Value.lineFeeds ++ [0]).sum =
        ((columns.flatMap toldValues).map Value.lineFeeds).sum := by
  induction columns with
  | nil => exact ⟨rfl, rfl⟩
  | cons column rest ih =>
    obtain ⟨length, sum⟩ := ih
    simp only [List.flatMap_cons, List.length_append, List.length_map, List.length_cons,
      List.length_nil, List.map_append, List.sum_append, List.sum_cons, List.sum_nil, length, sum]
    omega

/-- The lines of a model: two for its frame, one for each column and each value that is told of it,
and one more for each line feed in these values. -/
theorem length_renderModel (single : HasSingleNames table) (done : renderModel table = .ok text) :
    (Text.lines text).length =
      2 + table.columns.length + (table.columns.flatMap toldValues).length +
        ((table.columns.flatMap toldValues).map Value.lineFeeds).sum := by
  obtain ⟨lines, rendered, rfl⟩ := map_ok done
  obtain ⟨rfl, told⟩ := columnsLines_told rendered
  have plain : Text.lineFeeds "model" = 0 := rfl
  have feeds := lineFeeds_columns told single.names single.enums
  have length := congrArg List.length feeds
  obtain ⟨count, sum⟩ := lineFeeds_total table.columns
  rw [List.length_map, count] at length
  rw [length_declaration plain single.className, feeds, length, sum, ← Nat.add_assoc]

end Model

section Enum

variable {enum : EnumType}

theorem lineFeeds_memberLine {member : Member} (within : member ∈ members enum) :
    Text.lineFeeds member.line = Text.lineFeeds member.value := by
  have name : Text.lineFeeds member.name = 0 := by
    rw [Text.lineFeeds_eq_zero_iff]
    intro feed
    exact absurd (memberName_characters (members_named member within) '\n' feed) (by decide)
  have colon : Text.lineFeeds ": " = 0 := rfl
  have semicolon : Text.lineFeeds ";" = 0 := rfl
  simp [Member.line, name, colon, semicolon, Text.lineFeeds_doubleQuoted]

/-- The lines of an enum: two for its frame, one for each member, and one more for each line feed in
a member's value. -/
theorem length_renderEnum (single : Text.lineFeeds enum.className = 0) :
    (Text.lines (renderEnum enum)).length =
      2 + (members enum).length + ((members enum).map (Text.lineFeeds ·.value)).sum := by
  have plain : Text.lineFeeds "enum" = 0 := rfl
  have feeds : (members enum).map (Text.lineFeeds ∘ Member.line) =
      (members enum).map (Text.lineFeeds ·.value) :=
    List.map_congr_left fun member within => lineFeeds_memberLine within
  rw [renderEnum_members, length_declaration plain single, List.length_map, List.map_map, feeds]

end Enum

/-- Without line feeds in any item there are no lines but the ones promised. -/
theorem eq_promised_iff {α : Type} {items : List α} {feeds : α → Nat} {found promised : Nat}
    (total : found = promised + (items.map feeds).sum) :
    found = promised ↔ ∀ item ∈ items, feeds item = 0 := by
  rw [total, Nat.add_eq_left, List.sum_eq_zero_iff_forall_eq_nat]
  exact List.forall_mem_map

/-- A model has a text just if the integers that its documentation tells can be written. Models and
enums have the lines of their frames and one for each item, just if there is no line feed in what
their items quote: documentation and members take one more line for each. -/
theorem lines_rendered {table : Table} {enum : EnumType} (single : HasSingleNames table)
    (alsoSingle : Text.lineFeeds enum.className = 0) :
    ((∃ text, renderModel table = .ok text) ↔
      ∀ value ∈ table.columns.flatMap toldValues, value.WritesIntegers) ∧
    (∀ text, renderModel table = .ok text →
      (Text.lines text).length =
          2 + table.columns.length + (table.columns.flatMap toldValues).length +
            ((table.columns.flatMap toldValues).map Value.lineFeeds).sum ∧
        ((Text.lines text).length =
            2 + table.columns.length + (table.columns.flatMap toldValues).length ↔
          ∀ value ∈ table.columns.flatMap toldValues, value.lineFeeds = 0)) ∧
    ((Text.lines (renderEnum enum)).length =
          2 + (members enum).length + ((members enum).map (Text.lineFeeds ·.value)).sum ∧
        ((Text.lines (renderEnum enum)).length = 2 + (members enum).length ↔
          ∀ member ∈ members enum, Text.lineFeeds member.value = 0)) ∧
    (∀ key ∈ documentedOptions, ∀ value text, Value.spelled value = .ok text →
      (Text.lines (docLine key text)).length = value.lineFeeds + 1) ∧
    ∀ member ∈ members enum,
      (Text.lines member.line).length = Text.lineFeeds member.value + 1 := by
  refine ⟨renderModel_returns_iff, ?model, ?enum, ?documentation, ?member⟩
  case model =>
    intro text done
    have total := length_renderModel single done
    exact ⟨total, eq_promised_iff total⟩
  case enum =>
    have total := length_renderEnum alsoSingle
    exact ⟨total, eq_promised_iff total⟩
  case documentation =>
    intro key listed value text spelled
    rw [Text.length_lines, lineFeeds_docLine listed, Value.lineFeeds_spelled spelled]
  case member =>
    intro member within
    rw [Text.length_lines, lineFeeds_memberLine within]

/-- A table with line feeds in a default: in a text, in a name, and in a tuple, which shows it. -/
def diary : Table :=
  ⟨"diary", "Diary", [
    { name := "entry", type := "text", options := [
        ("default", .mapping [("a\n", .list [.text "b", .text "\nc\n"]), ("d", .tuple [.text "\n"])]),
        ("limit", .int 80)] },
    { name := "mood", type := "enum", enumName := some "Mood" }]⟩

/-- An enum with a line feed in a value that has a member and in one that has none. -/
def moods : EnumType :=
  ⟨"mood", "Mood", ["so\nso", "\n\n", "fine"]⟩

theorem diary_single : HasSingleNames diary where
  className := by decide
  names := by decide
  enums := by decide

theorem lines_rendered_diary :
    (∃ text, renderModel diary = .ok text ∧ (Text.lines text).length = 9) ∧
      (Text.lines (renderEnum moods)).length = 5 := by
  obtain ⟨returns, model, ⟨enum, -⟩, -⟩ :=
    lines_rendered diary_single (show Text.lineFeeds moods.className = 0 by decide)
  obtain ⟨text, done⟩ := returns.mpr (by decide +kernel)
  exact ⟨⟨text, done, (model text done).1⟩, enum⟩

/-- A table with one column, whose default has two lines. -/
def broken : Table :=
  ⟨"notes", "Notes", [{ name := "body", type := "text", options := [("default", .text "a\nb")] }]⟩

/-- The documentation of one default stands on two lines, and so does the value of one member. -/
theorem lines_broken :
    HasSingleNames broken ∧ broken.columns.flatMap toldValues = [.text "a\nb"] ∧
      renderModel broken =
        .ok "model Notes \x7b\n  @doc(\"default: a\nb\")\n  body?: string;\n\x7d" ∧
      (∀ text, renderModel broken = .ok text → (Text.lines text).length ≠
        2 + broken.columns.length + (broken.columns.flatMap toldValues).length) ∧
      renderEnum ⟨"body", "Body", ["a\nb"]⟩ = "enum Body \x7b\n  A_B: \"a\nb\";\n\x7d" ∧
      (Text.lines (renderEnum ⟨"body", "Body", ["a\nb"]⟩)).length ≠ 2 + 1 := by
  have single : HasSingleNames broken :=
    { className := by decide, names := by decide, enums := by decide }
  refine ⟨single, by rfl, by rfl, ?_, by rfl, ?_⟩
  · intro text done
    rw [length_renderModel single done]
    decide
  · rw [length_renderEnum (by decide)]
    decide

end RailSpec.TypeSpec
