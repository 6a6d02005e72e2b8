import RailSpec.Text.Lines

/-!
Paths: texts in which slashes divide names. A path keeps the names of its parents as they are
written; only resolving it takes them out.
-/

namespace RailSpec.Disk

/-- Where a file or directory is: the names that lead to it from the root. -/
abbrev Place := List String

/-- A path starts at the root or, with an empty root, wherever its reader is. Two slashes are a
root of their own. -/
structure Path where
  root : String := ""
  names : List String := []
  deriving DecidableEq, Repr

namespace Path

/-- The pieces of a text between slashes. -/
def pieces : List Char → List (List Char)
  | [] => [[]]
  | c :: rest =>
    if c = '/' then [] :: pieces rest
    else
      match pieces rest with
      | [] => [[c]]
      | piece :: others => (c :: piece) :: others

def rootOf : List Char → String
  | '/' :: '/' :: '/' :: _ => "/"
  | '/' :: '/' :: _ => "//"
  | '/' :: _ => "/"
  | _ => ""

/-- A piece that leads somewhere; empty pieces and single points stay where they are. -/
def isName (piece : List Char) : Bool :=
  piece ≠ [] && piece ≠ ['.']

def ofString (text : String) : Path :=
  ⟨rootOf text.toList, ((pieces text.toList).filter isName).map String.ofList⟩

def ofPlace (place : Place) : Path :=
  ⟨"/", place⟩

/-- The text of a path; one without names and root is a point. -/
def toString (path : Path) : String :=
  if path.root = "" && path.names.isEmpty then "." else path.root ++ Text.joined "/" path.names

/-- The last name, empty if there is none. -/
def name (path : Path) : String :=
  path.names.getLast?.getD ""

/-- The path without its last name; one without names is its own parent. -/
def parent (path : Path) : Path :=
  { path with names := path.names.dropLast }

def isAbsolute (path : Path) : Bool :=
  path.root ≠ ""

/-- Another path seen from this one. -/
def join (path other : Path) : Path :=
  if other.isAbsolute then other else { path with names := path.names ++ other.names }

/-- What is behind the last point of a name, with that point; not if the point is the name's first
or last character. -/
def suffixOf (name : List Char) : List Char :=
  let behind := name.reverse.takeWhile (· ≠ '.')
  if behind.isEmpty || name.length ≤ behind.length + 1 then [] else '.' :: behind.reverse

def suffix (path : Path) : String :=
  String.ofList (suffixOf path.name.toList)

def parentName : String := ".."

/-- Follows names from a place by the names alone. -/
def follow (place : Place) : List String → Place
  | [] => place
  | name :: rest =>
    if name = parentName then follow place.dropLast rest else follow (place ++ [name]) rest

/-- The place that a path names for a reader at `here`, where no name is a link. -/
def resolve (here : Place) (path : Path) : Place :=
  follow (if path.isAbsolute then [] else here) path.names

/-- A path with its parents taken out, from the root that it has or from where its reader is. -/
def absolute (here : Place) (path : Path) : Path :=
  ⟨if path.root = "//" then "//" else "/", resolve here path⟩

/-- Whether a path holds the character that no system takes in a path. -/
def hasNull (path : Path) : Bool :=
  path.names.any fun name => name.toList.contains '\x00'

/-- The names that lead from one place to another: up as often as needed, then down. -/
def between : Place → Place → List String
  | first :: starts, second :: targets =>
    if first = second then between starts targets
    else List.replicate (starts.length + 1) parentName ++ second :: targets
  | starts, targets => List.replicate starts.length parentName ++ targets

/-- The way from one place to another as a text. -/
def wayText (start target : Place) : String :=
  (Path.mk "" (between start target)).toString

/-- Whether a way leads out of the place where it starts. A name that begins with two points counts
as leading out. -/
def leadsOut (way : String) : Bool :=
  "..".toList.isPrefixOf way.toList

/-- A path below a directory as seen from there. -/
def below? (directory path : Path) : Option Path :=
  if directory.root = path.root && directory.names.isPrefixOf path.names then
    some ⟨"", path.names.drop directory.names.length⟩
  else none

end Path

end RailSpec.Disk
