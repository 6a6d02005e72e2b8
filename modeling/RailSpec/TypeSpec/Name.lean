import RailSpec.Text.Blank
import RailSpec.Text.Casing

/-! Identifiers of the generated language: type names from table names, member names from values. -/

namespace RailSpec.TypeSpec

/-- The parts of a text between runs of separators, without empty ones. -/
def parts (separates : Char → Bool) : List Char → List (List Char)
  | [] => []
  | c :: rest =>
    if separates c then parts separates rest
    else
      match rest with
      | [] => [[c]]
      | next :: _ =>
        if separates next then [c] :: parts separates rest
        else
          match parts separates rest with
          | [] => [[c]]
          | part :: others => (c :: part) :: others

/-- Underscores and blanks stand between the parts of a name. -/
def separatesName (c : Char) : Bool :=
  c = '_' || Text.isBlank c

/-- A part with its first character in upper case and the rest as it is. -/
def capitalized : List Char → List Char
  | [] => []
  | first :: rest => Text.upper first ++ rest

/-- The type name of a name without any parts. -/
def defaultName : String := "Model"

/-- The type name of a table or enum: its parts, each capitalized, one after the other. -/
def className (name : String) : String :=
  match parts separatesName name.toList with
  | [] => defaultName
  | found => String.ofList (found.flatMap capitalized)

/-- Puts one underscore in the place of every run of characters that satisfy a test. -/
def squeezed (joins : Char → Bool) : List Char → List Char
  | [] => []
  | c :: rest =>
    if joins c then
      match rest with
      | [] => ['_']
      | next :: _ => if joins next then squeezed joins rest else '_' :: squeezed joins rest
    else c :: squeezed joins rest

/-- Every character other than an ASCII letter or digit is special. -/
def isSpecial (c : Char) : Bool :=
  !c.isAlphanum

/-- A value without the blanks around it, with one underscore for every run of special characters,
with none at either end, and with no two in a row. -/
def sanitized (value : List Char) : List Char :=
  let named := squeezed isSpecial (Text.trimBy Text.isBlank value)
  squeezed (· = '_') (Text.trimBy (· = '_') named)

/-- The member name of an enum value: what is left of it in upper case, with an underscore in front
of a digit. A value of which nothing is left has none. -/
def memberName (value : String) : Option String :=
  match sanitized value.toList with
  | [] => none
  | first :: rest =>
    let letters := if first.isDigit then '_' :: first :: rest else first :: rest
    some (String.ofList (letters.map Char.toUpper))

end RailSpec.TypeSpec
