/-!
Loose values: what syntax trees, option lists and payloads are made of. Mappings keep the order of
their fields, and setting a field that is there keeps its place.
-/

namespace RailSpec

/-- A `deferred` value is no mapping itself but may give one on demand; an `object` has attributes
but no fields. -/
inductive Value where
  | null
  | bool (truth : Bool)
  | int (number : Int)
  | float (number : Float)
  | text (characters : String)
  | list (items : List Value)
  | tuple (items : List Value)
  | mapping (fields : List (String × Value))
  | deferred (inner : Value)
  | object (attributes : List (String × Value))
  deriving Inhabited

abbrev Fields := List (String × Value)

namespace Fields

/-- The value of a field. -/
def value? (fields : Fields) (name : String) : Option Value :=
  fields.lookup name

/-- Gives a field a value: in its place if it is there, else at the end. -/
def put (fields : Fields) (name : String) (value : Value) : Fields :=
  match fields with
  | [] => [(name, value)]
  | (key, old) :: rest =>
    if key = name then (key, value) :: rest else (key, old) :: put rest name value

/-- Puts every field of the second list into the first. -/
def merge (fields later : Fields) : Fields :=
  later.foldl (fun merged field => put merged field.1 field.2) fields

/-- The names in their order. -/
def names (fields : Fields) : List String :=
  fields.map Prod.fst

theorem value?_put_same (fields : Fields) (name : String) (value : Value) :
    value? (put fields name value) name = some value := by
  induction fields with
  | nil => simp [put, value?]
  | cons field rest ih =>
    obtain ⟨key, old⟩ := field
    by_cases same : key = name
    · simp [put, value?, same]
    · have other : (name == key) = false := by simpa using fun equal => same equal.symm
      simpa [put, value?, same, List.lookup_cons, other] using ih

theorem value?_put_other (fields : Fields) {name other : String} (value : Value)
    (different : other ≠ name) : value? (put fields name value) other = value? fields other := by
  induction fields with
  | nil =>
    have apart : (other == name) = false := by simpa using different
    simp [put, value?, List.lookup_cons, apart]
  | cons field rest ih =>
    obtain ⟨key, old⟩ := field
    by_cases same : key = name
    · subst same
      have apart : (other == key) = false := by simpa using different
      simp [put, value?, List.lookup_cons, apart]
    · simp only [put, value?, same, if_false, List.lookup_cons]
      split
      · rfl
      · exact ih

end Fields

namespace Value

/-- Whether a value is the boolean `false` and nothing else that counts as empty. -/
def isFalse : Value → Bool
  | .bool false => true
  | _ => false

def isTrue : Value → Bool
  | .bool true => true
  | _ => false

def isNull : Value → Bool
  | .null => true
  | _ => false

/-- The items of a list or tuple. -/
def items? : Value → Option (List Value)
  | .list items | .tuple items => some items
  | _ => none

/-- The items of a list alone, as payloads hold them. -/
def listItems : Value → List Value
  | .list items => items
  | _ => []

/-- A number, boolean or text. -/
def isPrimitive : Value → Bool
  | .bool _ | .int _ | .float _ | .text _ => true
  | _ => false

/-- A text that is not empty. -/
def nonEmptyText? : Value → Option String
  | .text characters => if characters = "" then none else some characters
  | _ => none

/-- The word that messages use for the kind of a value. -/
def kind : Value → String
  | .null => "NoneType"
  | .bool _ => "bool"
  | .int _ => "int"
  | .float _ => "float"
  | .text _ => "str"
  | .list _ => "list"
  | .tuple _ => "tuple"
  | .mapping _ => "dict"
  | .deferred _ | .object _ => "object"

end Value

end RailSpec
