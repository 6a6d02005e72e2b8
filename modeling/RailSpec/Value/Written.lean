import RailSpec.Number.Decimal
import RailSpec.Number.Literal
import RailSpec.Text.Lines
import RailSpec.Text.Quoted
import RailSpec.Value

/-!
Values as text: as messages show them, and as a schema spells them. Both fail on an integer with
more digits than may be written.
-/

namespace RailSpec

namespace Number

/-- An integer with too many digits, met while writing it or while reading it. -/
inductive DigitFault where
  | written
  | read (digits : Nat)
  deriving DecidableEq, Repr

def DigitFault.message : DigitFault → String
  | .written =>
    "Exceeds the limit (4300 digits) for integer string conversion; "
      ++ "use sys.set_int_max_str_digits() to increase the limit"
  | .read digits =>
    "Exceeds the limit (4300 digits) for integer string conversion: value has " ++ toString digits
      ++ " digits; use sys.set_int_max_str_digits() to increase the limit"

/-- The decimal text of an integer. -/
def writeInteger (n : Int) : Except DigitFault String :=
  if isWritable n then .ok (toString n) else .error .written

end Number

namespace Value

open Number (DigitFault writeInteger shownFloat)

def bracketed (opening closing : String) (items : List String) : String :=
  opening ++ Text.joined ", " items ++ closing

mutual

/-- A value inside a container or a message: texts are quoted. -/
def shown : Value → Except DigitFault String
  | .null => .ok "None"
  | .bool truth => .ok (if truth then "True" else "False")
  | .int number => writeInteger number
  | .float number => .ok (shownFloat number)
  | .text characters => .ok (Text.shown characters)
  | .list items => (shownEach items).map (bracketed "[" "]")
  | .tuple [item] => (shown item).map fun text => "(" ++ text ++ ",)"
  | .tuple items => (shownEach items).map (bracketed "(" ")")
  | .mapping fields => (shownFields fields).map (bracketed "\x7b" "\x7d")
  | .deferred _ | .object _ => .ok "<object>"

def shownEach : List Value → Except DigitFault (List String)
  | [] => .ok []
  | item :: rest => do
    let text ← shown item
    let texts ← shownEach rest
    return text :: texts

def shownFields : List (String × Value) → Except DigitFault (List String)
  | [] => .ok []
  | (name, value) :: rest => do
    let text ← shown value
    let texts ← shownFields rest
    return (Text.shown name ++ ": " ++ text) :: texts

end

/-- A value as a message of its own: a text stands as it is. -/
def message : Value → Except DigitFault String
  | .text characters => .ok characters
  | value => value.shown

mutual

/-- A value as the schema spells it: `nil`, `true`, lists without brackets. -/
def spelled : Value → Except DigitFault String
  | .null => .ok "nil"
  | .bool truth => .ok (if truth then "true" else "false")
  | .list items => (spelledEach items).map (Text.joined ",")
  | .mapping fields => (spelledFields fields).map (bracketed "\x7b" "\x7d")
  | .text characters => .ok characters
  | value => value.shown

def spelledEach : List Value → Except DigitFault (List String)
  | [] => .ok []
  | item :: rest => do
    let text ← spelled item
    let texts ← spelledEach rest
    return text :: texts

def spelledFields : List (String × Value) → Except DigitFault (List String)
  | [] => .ok []
  | (name, value) :: rest => do
    let text ← spelled value
    let texts ← spelledFields rest
    return (name ++ ": " ++ text) :: texts

end

end Value

end RailSpec
