import RailSpec.Number.Binary64
import RailSpec.Text.Blank
import RailSpec.Text.Digit

/-!
Numbers read from text. Digits of any script count, single underscores may stand between digits, and
decimal integers have a bound on their digits because conversion takes quadratic time.
-/

namespace RailSpec.Number

/-- The most digits that a decimal integer may have when it is read or written. -/
def digitLimit : Nat := 4300

/-- Whether an integer has few enough digits to be written. -/
def isWritable (n : Int) : Bool :=
  n.natAbs < Nat.pow 10 digitLimit

/-- Blanks that may surround a number: all but the information separators. -/
def isNumberBlank (c : Char) : Bool :=
  Text.isBlank c && !(28 ≤ c.toNat && c.toNat ≤ 31)

/-- The value of digits in a base, the most significant first. -/
def ofDigits (base : Nat) (digits : List Nat) : Nat :=
  digits.foldl (fun value digit => value * base + digit) 0

/-- The digits of a number in a base, where each underscore stands between two digits. -/
def groupedDigits? (base : Nat) : List Char → Option (List Nat)
  | [] => none
  | [c] => (Text.baseValue? c).bind fun digit => if digit < base then some [digit] else none
  | c :: '_' :: rest =>
    match Text.baseValue? c, groupedDigits? base rest with
    | some digit, some digits => if digit < base then some (digit :: digits) else none
    | _, _ => none
  | c :: next :: rest =>
    match Text.baseValue? c, groupedDigits? base (next :: rest) with
    | some digit, some digits => if digit < base then some (digit :: digits) else none
    | _, _ => none

/-- A sign in front of a number. -/
def takeSign : List Char → Bool × List Char
  | '-' :: rest => (true, rest)
  | '+' :: rest => (false, rest)
  | rest => (false, rest)

def signed (negative : Bool) (magnitude : Nat) : Int :=
  if negative then -(magnitude : Int) else magnitude

/-- A decimal number within the bound on digits. -/
def decimalValue? (digits : List Nat) : Option Nat :=
  if digits.length ≤ digitLimit then some (ofDigits 10 digits) else none

/-- Digits after a base mark, which a single underscore may precede. -/
def markedDigits? (base : Nat) : List Char → Option Nat
  | '_' :: rest => (groupedDigits? base rest).map (ofDigits base)
  | rest => (groupedDigits? base rest).map (ofDigits base)

/-- An unsigned number, its base given by a mark; only zero itself may begin with the digit zero. -/
def markedNumber? : List Char → Option Nat
  | '0' :: 'x' :: rest | '0' :: 'X' :: rest => markedDigits? 16 rest
  | '0' :: 'o' :: rest | '0' :: 'O' :: rest => markedDigits? 8 rest
  | '0' :: 'b' :: rest | '0' :: 'B' :: rest => markedDigits? 2 rest
  | text =>
    match (groupedDigits? 10 text).bind decimalValue? with
    | some value => if text.head? = some '0' && value ≠ 0 then none else some value
    | none => none

/-- The digits of a text that holds nothing but digits. -/
def plainDigits? : List Char → Option (List Nat)
  | [] => none
  | text => text.mapM Text.digitValue?

/-- The number that an integer literal stands for. Bare digits are decimal even with leading zeros;
else there may be blanks, a sign, a base mark and underscores. -/
def readInteger (text : String) : Option Int :=
  match plainDigits? text.toList with
  | some digits => (decimalValue? digits).map Int.ofNat
  | none =>
    let trimmed := Text.trimBy isNumberBlank (text.toList.map Text.asciiDigit)
    let (negative, body) := takeSign trimmed
    (markedNumber? body).map (signed negative)

/-- Removes underscores, each of which must stand between two digits. -/
def dropUnderscores (afterDigit : Bool) : List Char → Option (List Char)
  | [] => some []
  | '_' :: rest =>
    if afterDigit && (rest.head?.any Char.isDigit) then dropUnderscores false rest else none
  | c :: rest => (dropUnderscores c.isDigit rest).map (c :: ·)

/-- The words for the doubles that are no numbers, in any case. -/
def specialFloat? (negative : Bool) (text : List Char) : Option Float :=
  let word := String.ofList (text.map Char.toLower)
  if word = "inf" || word = "infinity" then some (infinity negative)
  else if word = "nan" then some notANumber
  else none

/-- The exponent of a decimal number: nothing, or a mark, a sign and digits. -/
def exponent? : List Char → Option Int
  | [] => some 0
  | c :: rest =>
    if c = 'e' || c = 'E' then
      let (negative, digits) := takeSign rest
      if !digits.isEmpty && digits.all Char.isDigit then
        some (signed negative (ofDigits 10 (digits.map fun d => d.toNat - 48)))
      else none
    else none

/-- A decimal number in ASCII without blanks and underscores, rounded to the nearest double. -/
def plainFloat? (text : List Char) : Option Float :=
  let (negative, body) := takeSign text
  match specialFloat? negative body with
  | some special => some special
  | none =>
    let whole := body.takeWhile Char.isDigit
    let afterWhole := body.dropWhile Char.isDigit
    let (places, rest) := match afterWhole with
      | '.' :: tail => (tail.takeWhile Char.isDigit, tail.dropWhile Char.isDigit)
      | tail => ([], tail)
    if whole.isEmpty && places.isEmpty then none
    else
      (exponent? rest).map fun power =>
        let digits := (whole ++ places).map fun c => c.toNat - 48
        floatOfDecimal negative (ofDigits 10 digits) (power - places.length)

/-- The double that a number's text stands for, with blanks around it and underscores in it. -/
def readFloat (text : String) : Option Float :=
  let trimmed := Text.trimBy isNumberBlank (text.toList.map Text.asciiDigit)
  (dropUnderscores false trimmed).bind plainFloat?

/-- Whether two underscores stand next to each other. -/
def hasDoubleUnderscore : List Char → Bool
  | '_' :: '_' :: _ => true
  | _ :: rest => hasDoubleUnderscore rest
  | [] => false

/-- The double that a setting's text stands for: ASCII only, either with blanks around it, or with
underscores anywhere but at the ends and next to each other. -/
def readSettingFloat (text : String) : Option Float :=
  let characters := text.toList
  match plainFloat? (Text.trimBy isNumberBlank characters) with
  | some value => some value
  | none =>
    if characters.head? = some '_' || characters.getLast? = some '_'
        || hasDoubleUnderscore characters then none
    else plainFloat? (characters.filter (· ≠ '_'))

end RailSpec.Number
