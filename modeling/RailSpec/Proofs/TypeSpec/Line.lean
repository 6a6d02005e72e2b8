import RailSpec.Proofs.Text.Quoted
import RailSpec.Proofs.TypeSpec.Declaration
import RailSpec.Proofs.TypeSpec.MemberName

/-!
Lines of models read back. A line is documentation, which starts with an at sign and whose text ends
at its own closing quote, or it declares a property, whose name is a word.
-/

namespace RailSpec.TypeSpec

/-- A text of ASCII letters, digits and underscores. -/
structure IsWord (text : String) : Prop where
  filled : text ≠ ""
  plain : ∀ c ∈ text.toList, isNameCharacter c = true

theorem IsWord.of_all {text : String} (filled : text ≠ "")
    (plain : text.toList.all isNameCharacter = true) : IsWord text :=
  ⟨filled, List.all_eq_true.mp plain⟩

/-- A line of a model. -/
inductive ModelLine where
  | doc (key value : String)
  | property (name : String) (required : Bool) (type : String)

namespace ModelLine

def text : ModelLine → String
  | doc key value => docLine key value
  | property name required type => name ++ (if required then "" else "?") ++ ": " ++ type ++ ";"

/-- Reads a property line behind its blanks. -/
def readProperty (text : List Char) : Option (ModelLine × List Char) := do
  let (name, rest) := Text.front isNameCharacter text
  let optional := Text.behind "?" rest
  let typed ← Text.behind ": " (optional.getD rest)
  let (type, rest) := Text.front (· ≠ ';') typed
  let rest ← Text.behind ";\n" rest
  return (property name optional.isNone type, rest)

/-- Reads documentation behind its at sign and opening parenthesis. -/
def readDoc (text : List Char) : Option (ModelLine × List Char) := do
  let (documentation, rest) ← Text.readQuoted text
  let (key, told) := Text.front (· ≠ ':') documentation.toList
  let value ← Text.behind ": " told
  let rest ← Text.behind ")\n" rest
  return (doc key (String.ofList value), rest)

/-- Reads a line of a model. -/
def read (text : List Char) : Option (ModelLine × List Char) := do
  let opened ← Text.behind "  " text
  match Text.behind "@doc(" opened with
  | some quoted => readDoc quoted
  | none => readProperty opened

/-- A line that can be told from what stands behind it. -/
def IsPlain : ModelLine → Prop
  | doc key _ => ':' ∉ key.toList
  | property name _ type => IsWord name ∧ ';' ∉ type.toList

theorem text_filled (line : ModelLine) : Text.isBlankText line.text = false := by
  cases line with
  | doc key value =>
    have sign : '@' ∈ (doc key value).text.toList := by
      simp [text, docLine]
    exact Text.isBlankText_of_solid sign (by decide)
  | property name required type =>
    have colon : ':' ∈ (property name required type).text.toList := by
      simp [text]
    exact Text.isBlankText_of_solid colon (by decide)

theorem readDoc_append {key : String} (plain : ':' ∉ key.toList) (value : String)
    (rest : List Char) :
    readDoc ((Text.doubleQuoted (key ++ ": " ++ value)).toList ++ (")\n".toList ++ rest)) =
      some (doc key value, rest) := by
  have inside : ∀ c ∈ key.toList, decide (c ≠ ':') = true := by
    intro c member
    exact decide_eq_true fun same => plain (same ▸ member)
  have told : (key ++ ": " ++ value).toList = key.toList ++ (": ".toList ++ value.toList) := by
    simp
  simp only [readDoc, Text.readQuoted_doubleQuoted, told, Option.bind_eq_bind, Option.bind_some]
  rw [Text.front_append inside (by simp)]
  dsimp only
  rw [Text.behind_append, Option.bind_some, Text.behind_append, Option.bind_some, String.ofList_toList]
  rfl

theorem readProperty_append {name type : String} (word : IsWord name) (required : Bool)
    (plain : ';' ∉ type.toList) (rest : List Char) :
    readProperty ((property name required type).text.toList ++ '\n' :: rest) =
      some (property name required type, rest) := by
  have inside : ∀ c ∈ type.toList, decide (c ≠ ';') = true := by
    intro c member
    exact decide_eq_true fun same => plain (same ▸ member)
  have typed : Text.front (· ≠ ';') (type.toList ++ (";\n".toList ++ rest)) =
      (type, ";\n".toList ++ rest) :=
    Text.front_append inside (by simp)
  -- Neither a question mark nor a colon can belong to the name, so the name ends at either.
  cases required with
  | true =>
    have line : (property name true type).text.toList ++ '\n' :: rest =
        name.toList ++ (": ".toList ++ (type.toList ++ (";\n".toList ++ rest))) := by
      simp [text]
    have notOptional : Text.behind "?" (": ".toList ++ (type.toList ++ (";\n".toList ++ rest))) =
        none :=
      Text.behind_none '?' ':' rfl rfl (by decide)
    rw [line, readProperty, Text.front_append word.plain (by simp [isNameCharacter])]
    simp only [notOptional, Option.getD_none, Text.behind_append, typed, Option.bind_eq_bind,
      Option.bind_some]
    rfl
  | false =>
    have line : (property name false type).text.toList ++ '\n' :: rest =
        name.toList ++ ("?".toList ++ (": ".toList ++ (type.toList ++ (";\n".toList ++ rest)))) := by
      simp [text]
    rw [line, readProperty, Text.front_append word.plain (by simp [isNameCharacter])]
    simp only [Option.getD_some, Text.behind_append, typed, Option.bind_eq_bind, Option.bind_some]
    rfl

/-- The first character of a property line shows that it is no documentation. -/
theorem behind_doc {name type : String} (word : IsWord name) (required : Bool) (rest : List Char) :
    Text.behind "@doc(" ((property name required type).text.toList ++ rest) = none := by
  obtain ⟨first, behind, opened⟩ := List.exists_cons_of_ne_nil
    (mt String.toList_eq_nil_iff.mp word.filled)
  have named : isNameCharacter first = true :=
    word.plain first (opened ▸ List.mem_cons_self ..)
  refine Text.behind_none '@' first rfl ?_ ?_
  · simp [text, opened]
  · rintro rfl
    exact absurd named (by decide)

/-- A plain line is read whatever stands behind it. -/
theorem read_text {line : ModelLine} (plain : line.IsPlain) (rest : List Char) :
    read (indentedLine line.text ++ rest) = some (line, rest) := by
  cases line with
  | doc key value =>
    have text : indentedLine (doc key value).text ++ rest =
        "  ".toList ++ ("@doc(".toList ++
          ((Text.doubleQuoted (key ++ ": " ++ value)).toList ++ (")\n".toList ++ rest))) := by
      simp [indentedLine, text, docLine]
    rw [text, read]
    simp only [Text.behind_append, Option.bind_eq_bind, Option.bind_some]
    exact readDoc_append plain value rest
  | property name required type =>
    obtain ⟨word, plain⟩ := plain
    have text : indentedLine (property name required type).text ++ rest =
        "  ".toList ++ ((property name required type).text.toList ++ '\n' :: rest) := by
      simp [indentedLine]
    rw [text, read]
    simp only [Text.behind_append, behind_doc word, Option.bind_eq_bind, Option.bind_some]
    exact readProperty_append word required plain rest

end ModelLine

end RailSpec.TypeSpec
