import RailSpec.Proofs.Text.Quoted
import RailSpec.Proofs.TypeSpec.Declaration
import RailSpec.Proofs.TypeSpec.MemberName

/-!
Enums read back from their text. The text of an enum says its name and, for each of its values with
a letter or digit, the member and the value itself, and nothing that stands in a value is read as
anything else.
-/

namespace RailSpec.TypeSpec

/-- A member of an enum with the value that it stands for. -/
structure Member where
  name : String
  value : String
  deriving DecidableEq, Repr

namespace Member

def line (member : Member) : String :=
  member.name ++ ": " ++ Text.doubleQuoted member.value ++ ";"

/-- The member for a value, if the value has a member name. -/
def ofValue (value : String) : Option Member :=
  (memberName value).map (⟨·, value⟩)

/-- Reads the line of a member. -/
def read (text : List Char) : Option (Member × List Char) := do
  let opened ← Text.behind "  " text
  let (name, rest) := Text.front isNameCharacter opened
  let quoted ← Text.behind ": " rest
  let (value, rest) ← Text.readQuoted quoted
  let rest ← Text.behind ";\n" rest
  return (⟨name, value⟩, rest)

theorem read_line {member : Member} (named : ∀ c ∈ member.name.toList, isNameCharacter c = true)
    (rest : List Char) : read (indentedLine member.line ++ rest) = some (member, rest) := by
  have text : indentedLine member.line ++ rest =
      "  ".toList ++ (member.name.toList ++ (": ".toList ++
        ((Text.doubleQuoted member.value).toList ++ (";\n".toList ++ rest)))) := by
    simp [indentedLine, line]
  simp only [read, text, Text.behind_append, Option.bind_eq_bind, Option.bind_some]
  rw [Text.front_append named (by simp [isNameCharacter])]
  dsimp only
  rw [Text.behind_append, Option.bind_some, Text.readQuoted_doubleQuoted, Option.bind_some]
  dsimp only
  rw [Text.behind_append]
  rfl

theorem line_filled (member : Member) : Text.isBlankText member.line = false := by
  have colon : ':' ∈ member.line.toList := by
    simp [line]
  exact Text.isBlankText_of_solid colon (by decide)

end Member

/-- Whether a value has an ASCII letter or digit in it. -/
def isNameable (value : String) : Bool :=
  value.toList.any Char.isAlphanum

/-- The members of an enum in the order of its values. -/
def members (enum : EnumType) : List Member :=
  enum.values.filterMap Member.ofValue

theorem Member.ofValue_value (value : String) :
    (Member.ofValue value).map Member.value = Option.guard isNameable value := by
  rw [Member.ofValue, Option.map_map]
  cases named : memberName value with
  | none =>
    have special := memberName_eq_none_iff.mp named
    have nameless : isNameable value = false := by
      simpa [isNameable] using special
    rw [Option.guard, if_neg (by simp [nameless])]
    rfl
  | some name =>
    have nameable : isNameable value = true := by
      by_contra nameless
      have special : memberName value = none := by
        rw [memberName_eq_none_iff]
        simpa [isNameable] using nameless
      rw [special] at named
      cases named
    rw [Option.guard, if_pos nameable]
    rfl

/-- The values of the members are the values that can have one. -/
theorem members_values (enum : EnumType) :
    (members enum).map Member.value = enum.values.filter isNameable := by
  rw [members, List.map_filterMap, ← List.filterMap_eq_filter]
  exact List.filterMap_congr fun value _ => Member.ofValue_value value

theorem members_named {enum : EnumType} :
    ∀ member ∈ members enum, memberName member.value = some member.name := by
  intro member within
  obtain ⟨value, -, found⟩ := List.mem_filterMap.mp within
  obtain ⟨name, named, rfl⟩ := Option.map_eq_some_iff.mp found
  exact named

theorem renderEnum_members (enum : EnumType) :
    renderEnum enum = declaration "enum" enum.className ((members enum).map Member.line) := by
  have lines : memberLine = fun value => (Member.ofValue value).map Member.line := by
    funext value
    rw [memberLine, Member.ofValue, Option.map_map]
    rfl
  rw [renderEnum, lines, members, List.map_filterMap]

/-- Reads an enum as its name and its members. -/
def readEnum (text : String) : Option (String × List Member) :=
  readDeclaration Member.read "enum" text

/-- An enum whose name has no blank is read back from its text. -/
theorem readEnum_renderEnum {enum : EnumType}
    (plain : ∀ c ∈ enum.className.toList, Text.isBlank c = false) :
    readEnum (renderEnum enum) = some (enum.className, members enum) := by
  rw [readEnum, renderEnum_members]
  refine readDeclaration_declaration ?_ Member.line_filled ?_
  · rintro c inside rfl
    exact absurd (plain ' ' inside) (by decide)
  · intro member within
    exact Member.read_line (memberName_characters (members_named member within))

/-- Two enums with one text have the same name and the same values with a letter or digit. Their text
reads back as the name and one member for each such value, and whatever is quoted in a text, with
anything behind it, reads back as itself. -/
theorem renderEnum_unambiguous {first second : EnumType}
    (plain : ∀ c ∈ first.className.toList, Text.isBlank c = false)
    (alsoPlain : ∀ c ∈ second.className.toList, Text.isBlank c = false)
    (same : renderEnum first = renderEnum second) :
    (first.className = second.className ∧
      first.values.filter isNameable = second.values.filter isNameable) ∧
      (readEnum (renderEnum first) = some (first.className, members first) ∧
        (members first).map Member.value = first.values.filter isNameable) ∧
      ∀ value after,
        Text.readQuoted ((Text.doubleQuoted value).toList ++ after) = some (value, after) := by
  have reads := readEnum_renderEnum plain
  have alsoReads := readEnum_renderEnum alsoPlain
  rw [same] at reads
  obtain ⟨named, listed⟩ := Prod.mk.inj (Option.some.inj (reads.symm.trans alsoReads))
  have valued := congrArg (List.map Member.value) listed
  rw [members_values, members_values] at valued
  exact ⟨⟨named, valued⟩, ⟨readEnum_renderEnum plain, members_values first⟩,
    Text.readQuoted_doubleQuoted⟩

/-- Values that look like members, like nothing, and like the start of an escape. -/
def disguised : EnumType :=
  ⟨"mood", "Mood", ["a\";\n  B: \"b", "--", "x\\"]⟩

theorem renderEnum_unambiguous_disguised :
    renderEnum disguised = renderEnum ⟨"moods", "Mood", ["a\";\n  B: \"b", "x\\", ""]⟩ ∧
      readEnum (renderEnum disguised) =
        some ("Mood", [⟨"A_B_B", "a\";\n  B: \"b"⟩, ⟨"X", "x\\"⟩]) := by
  have same : renderEnum disguised =
      renderEnum ⟨"moods", "Mood", ["a\";\n  B: \"b", "x\\", ""]⟩ := by rfl
  have plain : ∀ c ∈ "Mood".toList, Text.isBlank c = false := by
    intro c member
    have solid : "Mood".toList.all (!Text.isBlank ·) = true := by decide
    simpa using List.all_eq_true.mp solid c member
  obtain ⟨-, ⟨reads, -⟩, -⟩ := renderEnum_unambiguous plain plain same
  exact ⟨same, reads⟩

section Distinct

theorem members_names (enum : EnumType) :
    (members enum).map Member.name = enum.values.filterMap memberName := by
  have named (value : String) : (Member.ofValue value).map Member.name = memberName value := by
    rw [Member.ofValue, Option.map_map]
    exact Option.map_id'
  rw [members, List.map_filterMap]
  exact List.filterMap_congr fun value _ => named value

theorem isNameable_iff {value : String} : isNameable value = true ↔ memberName value ≠ none := by
  rw [ne_eq, memberName_eq_none_iff]
  simp [isNameable]

/-- The text of an enum lists its members, and two of these have one name just if their values have
the same runs of letters and digits but for case. -/
theorem members_distinct_iff (enum : EnumType) :
    renderEnum enum = declaration "enum" enum.className ((members enum).map Member.line) ∧
      (((members enum).map Member.name).Nodup ↔
        ((enum.values.filter isNameable).map foldedRuns).Nodup) := by
  refine ⟨renderEnum_members enum, ?_⟩
  rw [members_names, List.Nodup, List.pairwise_filterMap, List.Nodup, List.pairwise_map,
    List.pairwise_filter]
  apply List.Pairwise.iff
  intro value other
  constructor
  · intro apart nameable alsoNameable same
    obtain ⟨name, named⟩ := Option.ne_none_iff_exists'.mp (isNameable_iff.mp nameable)
    have alsoNamed := (memberName_eq_iff.mpr same).symm.trans named
    exact apart name named name alsoNamed rfl
  · rintro apart name named other alsoNamed rfl
    have nameable : isNameable value = true := isNameable_iff.mpr (by simp [named])
    have alsoNameable : isNameable other = true := isNameable_iff.mpr (by simp [alsoNamed])
    exact apart nameable alsoNameable (memberName_eq_iff.mp (named.trans alsoNamed.symm))

/-- Two values that differ in nothing but case. -/
def cased : EnumType :=
  ⟨"status", "Status", ["draft", "Draft"]⟩

/-- Distinct values may have one member name, and then the name is declared twice. -/
theorem members_cased : cased.values.Nodup ∧
    renderEnum cased = "enum Status \x7b\n  DRAFT: \"draft\";\n  DRAFT: \"Draft\";\n\x7d" ∧
      ¬ ((members cased).map Member.name).Nodup := by
  have names : (members cased).map Member.name = ["DRAFT", "DRAFT"] := by rfl
  refine ⟨by decide, by rfl, ?_⟩
  rw [names]
  decide

end Distinct

end RailSpec.TypeSpec
