import RailSpec.Node

/-!
The schema text as a last resort: a node without structured data stands for the text between its
offsets.
-/

namespace RailSpec

/-- The characters of a schema text, reached by index. -/
structure Source where
  characters : Array Char

namespace Source

def ofString (text : String) : Source :=
  ⟨text.toList.toArray⟩

/-- The text from one index up to another, cut off at the end of the source. -/
def slice (source : Source) (start stop : Nat) : List Char :=
  (source.characters.extract start stop).toList

/-- The characters between two equal quotes, if a text has them. -/
def unquoted? (text : List Char) : Option (List Char) :=
  match text with
  | opening :: rest =>
    if (opening = '"' || opening = '\x27') && rest.getLast? = some opening then
      some rest.dropLast
    else none
  | [] => none

/-- What a piece of source stands for: quotes and the mark of a symbol are dropped, and the three
bare words are values. -/
def literal (text : List Char) : Value :=
  match unquoted? text with
  | some inner => .text (String.ofList inner)
  | none =>
    match text with
    | ':' :: rest => .text (String.ofList rest)
    | _ =>
      if text = ['t', 'r', 'u', 'e'] then .bool true
      else if text = ['f', 'a', 'l', 's', 'e'] then .bool false
      else if text = ['n', 'i', 'l'] then .null
      else .text (String.ofList text)

/-- A number that can be an offset; a truth value counts as one or zero. -/
def offset? : Value → Option Int
  | .int number => some number
  | .bool truth => some (if truth then 1 else 0)
  | _ => none

/-- The offset under one of two spellings; the first hides the second even when it is no offset. -/
def offsetUnder (fields : Fields) (name other : String) : Option Int :=
  match Fields.value? fields name with
  | some value => offset? value
  | none => (Fields.value? fields other).bind offset?

/-- The fields that hold a node's offsets: those of its location, if it has any, or its own. -/
def locationOf (fields : Fields) : Fields :=
  match (Node.firstOf fields ["location", "loc"]).bind Node.fields? with
  | some (field :: rest) => field :: rest
  | _ => fields

/-- The offsets of a node, if they are in order and not negative. -/
def spanOf (fields : Fields) : Option (Nat × Nat) :=
  let location := locationOf fields
  match offsetUnder location "startOffset" "start_offset",
      offsetUnder location "endOffset" "end_offset" with
  | some start, some stop =>
    if 0 ≤ start && start ≤ stop then some (start.toNat, stop.toNat) else none
  | _, _ => none

/-- What the source says at a node's offsets, if it has any. -/
def recover (source : Source) (fields : Fields) : Option Value :=
  (spanOf fields).map fun span => literal (source.slice span.1 span.2)

end Source

end RailSpec
