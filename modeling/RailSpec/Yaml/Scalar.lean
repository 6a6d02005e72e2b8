import RailSpec.Number.Literal
import RailSpec.Value.Written

/-!
What a plain scalar of a settings document stands for: a truth word, a number, nothing, a date, or
else its own text. Integers may be binary, octal, hexadecimal or in groups of sixty.
-/

namespace RailSpec.Yaml

/-- Why a document has no value: its form is broken, or a number in it cannot be had. -/
inductive Fault where
  | broken
  | digits (fault : Number.DigitFault)
  | noDigits (base : Nat)
  deriving DecidableEq, Repr

def Fault.message : Fault → String
  | .broken => "broken"
  | .digits fault => fault.message
  | .noDigits base => "invalid literal for int() with base " ++ toString base ++ ": \x27\x27"

/-- The three ways in which a word may be written. -/
def spellings (word : String) : List String :=
  let upper := word.toList.map Char.toUpper
  [word, String.ofList upper, String.ofList (upper.take 1 ++ word.toList.drop 1)]

def isSpelled (word text : String) : Bool :=
  (spellings word).contains text

def truth? (text : String) : Option Bool :=
  if ["yes", "true", "on"].any fun word => isSpelled word text then some true
  else if ["no", "false", "off"].any fun word => isSpelled word text then some false
  else none

def isNullWord (text : String) : Bool :=
  text = "" || text = "~" || isSpelled "null" text

def isDigitOf (base : Nat) (c : Char) : Bool :=
  (Text.baseValue? c).any (· < base)

/-- A digit of a base, or an underscore. -/
def isLooseDigit (base : Nat) (c : Char) : Bool :=
  c = '_' || isDigitOf base c

/-- The parts of a text between colons. -/
def colonParts : List Char → List (List Char)
  | [] => [[]]
  | c :: rest =>
    if c = ':' then [] :: colonParts rest
    else
      match colonParts rest with
      | [] => [[c]]
      | part :: parts => (c :: part) :: parts

/-- A number below sixty in one or two digits. -/
def isSixtieth : List Char → Bool
  | [a] => a.isDigit
  | [a, b] => '0' ≤ a && a ≤ '5' && b.isDigit
  | _ => false

/-- Digits and underscores that begin with a digit. -/
def isLooseNumber : List Char → Bool
  | c :: rest => c.isDigit && rest.all (isLooseDigit 10)
  | [] => false

def startsAboveZero (digits : List Char) : Bool :=
  digits.head?.any fun c => '1' ≤ c && c ≤ '9'

def digitsValue (base : Nat) (digits : List Char) : Nat :=
  Number.ofDigits base (digits.filterMap Text.baseValue?)

/-- The value of digits among underscores, of which there has to be at least one. -/
def looseValue (base : Nat) (text : List Char) : Except Fault Nat :=
  let digits := text.filter (· ≠ '_')
  if digits.isEmpty then .error (.noDigits base)
  else if base = 10 && Number.digitLimit < digits.length then
    .error (.digits (.read digits.length))
  else .ok (digitsValue base digits)

/-- The value of an unsigned integer, if a text is one. -/
def natural? (text : List Char) : Option (Except Fault Nat) :=
  match text with
  | '0' :: 'b' :: rest =>
    if !rest.isEmpty && rest.all (isLooseDigit 2) then some (looseValue 2 rest) else none
  | '0' :: 'x' :: rest =>
    if !rest.isEmpty && rest.all (isLooseDigit 16) then some (looseValue 16 rest) else none
  | ['0'] => some (.ok 0)
  | '0' :: rest => if rest.all (isLooseDigit 8) then some (looseValue 8 text) else none
  | _ =>
    match colonParts text with
    | [whole] => if isLooseNumber whole then some (looseValue 10 whole) else none
    | whole :: parts =>
      if startsAboveZero whole && isLooseNumber whole && parts.all isSixtieth then
        some ((looseValue 10 whole).map fun first =>
          parts.foldl (fun value part => value * 60 + digitsValue 10 part) first)
      else none
    | [] => none

/-- An exponent has a sign and digits. -/
def isExponent : List Char → Bool
  | [] => true
  | mark :: sign :: digits =>
    (mark = 'e' || mark = 'E') && (sign = '+' || sign = '-') && !digits.isEmpty
      && digits.all Char.isDigit
  | _ => false

/-- What stands in front of the first point of a text and behind it. -/
def pointParts? (text : List Char) : Option (List Char × List Char) :=
  let front := text.takeWhile (· ≠ '.')
  match text.drop front.length with
  | _ :: behind => some (front, behind)
  | [] => none

/-- Whether a text is a number with a point; one without digits in front of it has no sign. -/
def isDecimal (signed : Bool) (text : List Char) : Bool :=
  match pointParts? text with
  | none => false
  | some (front, behind) =>
    let places := behind.takeWhile (isLooseDigit 10)
    let exponent := behind.drop places.length
    if front.isEmpty then
      !signed && places.head?.any Char.isDigit && isExponent exponent
    else isLooseNumber front && isExponent exponent

/-- Whether a text is a number in groups of sixty with a point. -/
def isSixtiethDecimal (text : List Char) : Bool :=
  match pointParts? text with
  | none => false
  | some (front, behind) =>
    behind.all (isLooseDigit 10) &&
      match colonParts front with
      | whole :: part :: parts => isLooseNumber whole && (part :: parts).all isSixtieth
      | _ => false

def plainFloat (text : List Char) : Float :=
  (Number.plainFloat? text).getD Number.notANumber

/-- The value of groups of sixty, the last first. -/
def sixtiethValue (unit : Float) : List (List Char) → Float
  | [] => 0
  | part :: parts => plainFloat part * unit + sixtiethValue (unit * 60) parts

/-- The double that a text stands for, if it is one. -/
def decimal? (text : List Char) : Option Float :=
  let (negative, body) := Number.takeSign text
  let signed := body.length < text.length
  let digits := body.filter (· ≠ '_')
  if ["inf", "Inf", "INF"].any fun word => body = '.' :: word.toList then
    some (Number.infinity negative)
  else if ["nan", "NaN", "NAN"].any fun word => text = '.' :: word.toList then
    some Number.notANumber
  else if isDecimal signed body then
    some (if negative then -plainFloat digits else plainFloat digits)
  else if isSixtiethDecimal body then
    let value := sixtiethValue 1 (colonParts digits).reverse
    some (if negative then -value else value)
  else none

/-- Whether a text is a date: year, month and day in digits. -/
def isDate (text : List Char) : Bool :=
  match text with
  | a :: b :: c :: d :: '-' :: rest =>
    [a, b, c, d].all Char.isDigit &&
      match rest with
      | [e, f, '-', g, h] => [e, f, g, h].all Char.isDigit
      | _ => false
  | _ => false

/-- The value of a plain scalar. A date is a value of which nothing is known. -/
def plainValue (characters : List Char) : Except Fault Value :=
  let text := String.ofList characters
  let (negative, body) := Number.takeSign characters
  if isNullWord text then .ok .null
  else if text = "<<" || text = "=" then .error .broken
  else
    match truth? text, decimal? characters, natural? body with
    | some truth, _, _ => .ok (.bool truth)
    | none, some number, _ => .ok (.float number)
    | none, none, some value => value.map fun n => .int (Number.signed negative n)
    | none, none, none => .ok (if isDate characters then .object [] else .text text)

end RailSpec.Yaml
