import RailSpec.Value.Written

/-!
JSON texts read into values. Mappings keep the order of the text, a repeated name keeps its place
and takes the last value, and besides the standard numbers there are words for infinities and the
value that is no number.
-/

namespace RailSpec.Json

/-- What a reader may complain about. -/
inductive Complaint where
  | value
  | name
  | colon
  | comma
  | moreText
  | openString
  | control
  | escape
  | unicodeEscape
  | byteOrderMark
  deriving DecidableEq, Repr

def Complaint.message : Complaint → String
  | .value => "Expecting value"
  | .name => "Expecting property name enclosed in double quotes"
  | .colon => "Expecting ':' delimiter"
  | .comma => "Expecting ',' delimiter"
  | .moreText => "Extra data"
  | .openString => "Unterminated string starting at"
  | .control => "Invalid control character at"
  | .escape => "Invalid \\escape"
  | .unicodeEscape => "Invalid \\uXXXX escape"
  | .byteOrderMark => "Unexpected UTF-8 BOM (decode using utf-8-sig)"

/-- A complaint at a position, which counts characters from zero, or an integer with too many
digits. -/
inductive Stop where
  | complaint (what : Complaint) (position : Nat)
  | digits (fault : Number.DigitFault)
  deriving DecidableEq, Repr

/-- The text from a position on. -/
structure Cursor where
  position : Nat
  rest : List Char

def Cursor.advance (cursor : Cursor) (count : Nat) : Cursor :=
  ⟨cursor.position + count, cursor.rest.drop count⟩

def isSpace (c : Char) : Bool :=
  c = ' ' || c = '\t' || c = '\n' || c = '\r'

/-- Passes over white space. -/
def Cursor.skip (cursor : Cursor) : Cursor :=
  cursor.advance (cursor.rest.takeWhile isSpace).length

def Cursor.stop {α : Type} (cursor : Cursor) (what : Complaint) : Except Stop α :=
  .error (.complaint what cursor.position)

/-- The character that a short escape stands for. -/
def shortEscape? (c : Char) : Option Char :=
  match c with
  | '"' | '\\' | '/' => some c
  | 'b' => some '\x08'
  | 'f' => some '\x0c'
  | 'n' => some '\n'
  | 'r' => some '\r'
  | 't' => some '\t'
  | _ => none

/-- The value of four hexadecimal digits. -/
def hexValue? (digits : List Char) : Option Nat :=
  (digits.mapM fun c => (Text.baseValue? c).filter (· < 16)).map (Number.ofDigits 16)

/-- The character of a code unit. Half of a pair on its own, which no text can hold, becomes the
replacement character. -/
def unitCharacter (unit : Nat) : Char :=
  if 0xD800 ≤ unit && unit < 0xE000 then '\uFFFD' else Char.ofNat unit

/-- The character that two code units make together. -/
def pairCharacter? (high low : Nat) : Option Char :=
  if 0xD800 ≤ high && high < 0xDC00 && 0xDC00 ≤ low && low < 0xE000 then
    some (Char.ofNat (0x10000 + (high - 0xD800) * 0x400 + (low - 0xDC00)))
  else none

/-- Puts a character in front of a string that was read. -/
def before (c : Char) (read : Except Stop (List Char × Cursor)) :
    Except Stop (List Char × Cursor) :=
  read.map fun (text, cursor) => (c :: text, cursor)

/-- The character of an escape and how many characters it takes behind its backslash. Behind a code
unit there must be something more, and behind the second half of a pair more than one character. -/
def escapeAt (opening position : Nat) : List Char → Except Stop (Char × Nat)
  | [] => .error (.complaint .openString opening)
  | 'u' :: a :: b :: c :: d :: next :: rest =>
    match hexValue? [a, b, c, d] with
    | none => .error (.complaint .unicodeEscape (position + 1))
    | some unit =>
      match unit / 0x400 == 0x36, next, rest with
      | true, '\\', 'u' :: e :: f :: g :: h :: _ :: _ =>
        match hexValue? [e, f, g, h] with
        | none => .error (.complaint .unicodeEscape (position + 7))
        | some second =>
          match pairCharacter? unit second with
          | some character => .ok (character, 11)
          | none => .ok (unitCharacter unit, 5)
      | _, _, _ => .ok (unitCharacter unit, 5)
  | 'u' :: _ => .error (.complaint .unicodeEscape (position + 1))
  | c :: _ =>
    match shortEscape? c with
    | some character => .ok (character, 1)
    | none => .error (.complaint .escape position)

/-- Reads a string from behind its opening quote, which stood at `opening`; `passed` characters in
front belong to an escape that has been read. -/
def readString (opening position passed : Nat) : List Char → Except Stop (List Char × Cursor)
  | [] => .error (.complaint .openString opening)
  | c :: rest =>
    if 0 < passed then readString opening (position + 1) (passed - 1) rest
    else if c = '"' then .ok ([], ⟨position + 1, rest⟩)
    else if c = '\\' then
      match escapeAt opening position rest with
      | .ok (character, count) => before character (readString opening (position + 1) count rest)
      | .error stop => .error stop
    else if c.toNat < 0x20 then .error (.complaint .control position)
    else before c (readString opening (position + 1) 0 rest)

/-- The digits at the front of a text. -/
def leadingDigits (text : List Char) : List Char :=
  text.takeWhile Char.isDigit

/-- The digits in front of a number's point: a zero alone, or digits without a leading zero. -/
def wholeDigits (text : List Char) : List Char :=
  match leadingDigits text with
  | '0' :: _ => ['0']
  | digits => digits

/-- The digits of a fraction behind its point, if there are any. -/
def fractionDigits : List Char → List Char
  | '.' :: rest => leadingDigits rest
  | _ => []

/-- An exponent's mark and sign, and its digits; without digits it is no exponent. -/
def exponentParts : List Char → Option (Bool × Nat × List Char)
  | mark :: rest =>
    if mark = 'e' || mark = 'E' then
      let (negative, body) := Number.takeSign rest
      let digits := leadingDigits body
      if digits.isEmpty then none else some (negative, 1 + (rest.length - body.length), digits)
    else none
  | [] => none

def digitValues (digits : List Char) : List Nat :=
  digits.map fun c => c.toNat - 48

/-- Reads a number: an integer of at most `limit` digits, or a double if there is a fraction or
exponent. -/
def readNumber (limit : Nat) (cursor : Cursor) : Except Stop (Value × Cursor) :=
  let negative := cursor.rest.head? = some '-'
  let body := if negative then cursor.rest.drop 1 else cursor.rest
  let whole := wholeDigits body
  if whole.isEmpty then cursor.stop .value
  else
    let behind := body.drop whole.length
    let places := fractionDigits behind
    let fraction := if places.isEmpty then 0 else places.length + 1
    let exponent := exponentParts (behind.drop fraction)
    let lead := (if negative then 1 else 0) + whole.length + fraction
    match places, exponent with
    | [], none =>
      if limit < whole.length then .error (.digits (.read whole.length))
      else
        .ok (.int (Number.signed negative (Number.ofDigits 10 (digitValues whole))),
          cursor.advance lead)
    | _, _ =>
      let (below, marks, powers) := exponent.getD (false, 0, [])
      let power := Number.signed below (Number.ofDigits 10 (digitValues powers))
      let digits := Number.ofDigits 10 (digitValues (whole ++ places))
      .ok (.float (Number.floatOfDecimal negative digits (power - places.length)),
        cursor.advance (lead + marks + powers.length))

/-- The words that are values. -/
def words : List (List Char × Value) := [
  ("null".toList, .null),
  ("true".toList, .bool true),
  ("false".toList, .bool false),
  ("NaN".toList, .float Number.notANumber),
  ("Infinity".toList, .float (Number.infinity false)),
  ("-Infinity".toList, .float (Number.infinity true))]

/-- Reads a word or a number. -/
def readBare (limit : Nat) (cursor : Cursor) : Except Stop (Value × Cursor) :=
  match words.find? fun word => word.1.isPrefixOf cursor.rest with
  | some (word, value) => .ok (value, cursor.advance word.length)
  | none => readNumber limit cursor

mutual

/-- Reads the value at a cursor. Each step into a value or past a separator spends fuel; there are
no more of them than twice the characters of the text. -/
def readValue (limit fuel : Nat) (cursor : Cursor) : Except Stop (Value × Cursor) :=
  match fuel with
  | 0 => cursor.stop .value
  | fuel + 1 =>
    match cursor.rest with
    | '"' :: rest =>
      (readString cursor.position (cursor.position + 1) 0 rest).map
        fun (text, behind) => (.text (String.ofList text), behind)
    | '\x7b' :: _ =>
      let inside := (cursor.advance 1).skip
      match inside.rest with
      | '\x7d' :: _ => .ok (.mapping [], inside.advance 1)
      | _ => readFields limit fuel [] inside
    | '[' :: _ =>
      let inside := (cursor.advance 1).skip
      match inside.rest with
      | ']' :: _ => .ok (.list [], inside.advance 1)
      | _ => readItems limit fuel [] inside
    | _ => readBare limit cursor

/-- Reads fields up to the closing brace, adding them to those read so far. -/
def readFields (limit fuel : Nat) (fields : Fields) (cursor : Cursor) :
    Except Stop (Value × Cursor) :=
  match fuel with
  | 0 => cursor.stop .name
  | fuel + 1 =>
    match cursor.rest with
    | '"' :: rest => do
      let (name, behind) ← readString cursor.position (cursor.position + 1) 0 rest
      let colon := behind.skip
      match colon.rest with
      | ':' :: _ =>
        let (value, after) ← readValue limit fuel (colon.advance 1).skip
        let fields := Fields.put fields (String.ofList name) value
        let separator := after.skip
        match separator.rest with
        | '\x7d' :: _ => return (.mapping fields, separator.advance 1)
        | ',' :: _ => readFields limit fuel fields (separator.advance 1).skip
        | _ => separator.stop .comma
      | _ => colon.stop .colon
    | _ => cursor.stop .name

/-- Reads items up to the closing bracket; those read so far are in reverse. -/
def readItems (limit fuel : Nat) (items : List Value) (cursor : Cursor) :
    Except Stop (Value × Cursor) :=
  match fuel with
  | 0 => cursor.stop .value
  | fuel + 1 => do
    let (item, after) ← readValue limit fuel cursor
    let separator := after.skip
    match separator.rest with
    | ']' :: _ => return (.list (item :: items).reverse, separator.advance 1)
    | ',' :: _ => readItems limit fuel (item :: items) (separator.advance 1).skip
    | _ => separator.stop .comma

end

/-- Reads a whole text as one value, with integers of at most `limit` digits. -/
def readText (limit : Nat) (text : List Char) : Except Stop Value :=
  match text with
  | '\uFEFF' :: _ => .error (.complaint .byteOrderMark 0)
  | _ => do
    let (value, behind) ← readValue limit (2 * text.length + 1) (Cursor.mk 0 text).skip
    match behind.skip.rest with
    | [] => return value
    | _ => behind.skip.stop .moreText

/-- Why a text is no JSON: a complaint with its place, or an integer with too many digits. -/
inductive Fault where
  | complaint (what : Complaint) (line column position : Nat)
  | digits (fault : Number.DigitFault)
  deriving DecidableEq, Repr

/-- Lines and columns count from one, positions from zero. -/
def Fault.message : Fault → String
  | .complaint what line column position =>
    what.message ++ ": line " ++ toString line ++ " column " ++ toString column ++ " (char "
      ++ toString position ++ ")"
  | .digits fault => fault.message

/-- The place of a position: its line, and its column in that line. -/
def placeOf (text : List Char) (position : Nat) : Nat × Nat :=
  let front := text.take position
  (front.count '\n' + 1, (front.reverse.takeWhile (· ≠ '\n')).length + 1)

def Stop.fault (text : List Char) : Stop → Fault
  | .complaint what position =>
    let place := placeOf text position
    .complaint what place.1 place.2 position
  | .digits fault => .digits fault

/-- The value of a JSON text with integers of at most `limit` digits. -/
def parseWithin (limit : Nat) (text : String) : Except Fault Value :=
  (readText limit text.toList).mapError (Stop.fault text.toList)

/-- The value of a JSON text. -/
def parse (text : String) : Except Fault Value :=
  parseWithin Number.digitLimit text

end RailSpec.Json
