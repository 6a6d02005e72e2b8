import RailSpec.SchemaText.Cursor
import RailSpec.Text.Digit

/-!
Literals of a schema's text: strings, symbols, lists of words, patterns, and numbers. The inside of
a string is cut into plain content, escapes, and what is replaced by a value, each a tree of its
own.
-/

namespace RailSpec.SchemaText

def isHex (c : Char) : Bool :=
  (Text.baseValue? c).any (· < 16)

def isOctal (c : Char) : Bool :=
  '0' ≤ c && c ≤ '7'

/-- How many of the first characters pass a test, at most `limit`. -/
def countFront (limit : Nat) (test : Char → Bool) (text : List Char) : Nat :=
  ((text.take limit).takeWhile test).length

/-- The length of an escape behind its backslash in a string between double quotes. -/
def escapeLength : List Char → Nat
  | 'x' :: rest => 1 + countFront 2 isHex rest
  | 'u' :: '\x7b' :: rest =>
    let codes := rest.takeWhile fun c => isHex c || c = ' '
    2 + codes.length + (if (rest.drop codes.length).head? = some '\x7d' then 1 else 0)
  | 'u' :: rest => 1 + countFront 4 isHex rest
  | c :: rest => if isOctal c then 1 + countFront 2 isOctal rest else 1
  | [] => 0

/-- The length up to the brace that closes the one in front, with all braces between. -/
def bracedLength (depth : Nat) : List Char → Nat
  | [] => 0
  | '\x7b' :: rest => 1 + bracedLength (depth + 1) rest
  | '\x7d' :: rest => if depth = 0 then 1 else 1 + bracedLength (depth - 1) rest
  | _ :: rest => 1 + bracedLength depth rest

/-- The length of the name of a variable that belongs to a record, to a class or to everything;
zero if there is none. -/
def variableLength (text : List Char) : Nat :=
  let named := fun sign (rest : List Char) =>
    if rest.head?.any startsName then sign + (rest.takeWhile isNameChar).length else 0
  match text with
  | '@' :: '@' :: rest => named 2 rest
  | '@' :: rest => named 1 rest
  | '$' :: '-' :: c :: _ => if isNameChar c then 3 else 0
  | '$' :: c :: rest =>
    if isNameChar c then 2 + (rest.takeWhile isNameChar).length
    else if "!@&\x60\x27+~=/\\,;.<>*$?:\"".toList.contains c then 2
    else 0
  | _ => 0

/-- The length of what a number sign makes a value inside a string: an expression in braces or a
variable. Zero if the sign stands for itself. -/
def valueLength : List Char → Nat
  | '#' :: '\x7b' :: rest => 2 + bracedLength 0 rest
  | '#' :: rest => if variableLength rest = 0 then 0 else 1 + variableLength rest
  | _ => 0

/-- How the inside of a literal is written: what ends it, what nests inside, whether blanks divide
it into words, and whether escapes and values stand out from the content. -/
structure Enclosure where
  opening : Option Char := none
  closing : Char
  words : Bool := false
  escapes : Bool := false

def isWordGap (c : Char) : Bool :=
  isBlank c || c = '\n'

/-- A part of a literal that is still open: content from its start on, if there is any. -/
def closeContent (start : Option Cursor) (here : Cursor) (parts : List ParseTree) :
    List ParseTree :=
  match start with
  | some start => leaf "string_content" start here :: parts
  | none => parts

/-- Parts of a literal, how deep the literal nests behind them, and the cursor there. -/
structure Parts where
  trees : List ParseTree
  depth : Nat
  behind : Cursor

/-- Whether a mark in content begins a new piece of it: one that could start the name of a
variable. -/
def Enclosure.dividesAt (enclosure : Enclosure) (c : Char) (rest : List Char) : Bool :=
  enclosure.escapes && c = '#' && rest.head?.any fun d => d = '@' || d = '$'

/-- How many blanks a cursor has to pass before an escape that stands out: an escape takes the
blanks before it into itself and so joins two words. -/
def Enclosure.blanksToEscape? (enclosure : Enclosure) (text : List Char) : Option Nat :=
  let blanks := (text.takeWhile isWordGap).length
  if enclosure.escapes && (text.drop blanks).head? = some '\\'
      && (enclosure.words || blanks = 0) then some blanks
  else none

/-- Reads content, escapes and values up to what ends them, which is not passed over. Where escapes
do not stand out, a backslash and the character behind it are content. -/
def readParts (fuel : Nat) (enclosure : Enclosure) (depth : Nat) (start : Option Cursor)
    (cursor : Cursor) : Parts :=
  match fuel with
  | 0 => ⟨closeContent start cursor [], depth, cursor⟩
  | fuel + 1 =>
    let goOn := fun depth count =>
      readParts fuel enclosure depth (some (start.getD cursor)) (cursor.advance count)
    match enclosure.blanksToEscape? cursor.rest, cursor.rest with
    | some blanks, _ =>
      let escape := (cursor.advance (blanks + 1)).rest
      let behind := cursor.advance (blanks + 1 + escapeLength escape)
      let parts := readParts fuel enclosure depth none behind
      { parts with
        trees := closeContent start cursor (leaf "escape_sequence" cursor behind :: parts.trees) }
    | none, [] => ⟨closeContent start cursor [], depth, cursor⟩
    | none, c :: rest =>
      if c = enclosure.closing && depth = 0 then ⟨closeContent start cursor [], depth, cursor⟩
      else if enclosure.words && isWordGap c then ⟨closeContent start cursor [], depth, cursor⟩
      else if c = enclosure.closing then goOn (depth - 1) 1
      else if enclosure.opening = some c then goOn (depth + 1) 1
      else if c = '\\' then goOn depth 2
      else if enclosure.escapes && 0 < valueLength cursor.rest then
        let behind := cursor.advance (valueLength cursor.rest)
        let parts := readParts fuel enclosure depth none behind
        { parts with
          trees := closeContent start cursor (leaf "interpolation" cursor behind :: parts.trees) }
      else if start.isSome && enclosure.dividesAt c rest then
        let parts := readParts fuel enclosure depth (some cursor) cursor.next
        { parts with trees := closeContent start cursor parts.trees }
      else goOn depth 1

/-- Passes over the character that ends a literal, or notes that it is missing. -/
def readClosing (closing : Char) (cursor : Cursor) : List ParseTree × Cursor :=
  if cursor.rest.head? = some closing then ([], cursor.next)
  else ([missing (String.singleton closing) cursor], cursor)

/-- Reads a literal that is not divided into words; `opening` is the cursor behind its opening. -/
def readText (fuel : Nat) (kind : String) (enclosure : Enclosure) (start opening : Cursor) :
    ParseTree × Cursor :=
  let parts := readParts fuel enclosure 0 none opening
  let (missing, stop) := readClosing enclosure.closing parts.behind
  (node kind start stop (parts.trees ++ missing), stop)

def quotes (quote : Char) : Enclosure :=
  { closing := quote, escapes := quote = '"' }

/-- Reads a string or, after a colon, a symbol in quotes. -/
def readQuoted (fuel : Nat) (kind : String) (start quote : Cursor) : Option (ParseTree × Cursor) :=
  match quote.rest with
  | c :: _ =>
    if c = '"' || c = '\x27' then some (readText fuel kind (quotes c) start quote.next) else none
  | [] => none

/-- Reads a literal between two equal marks that keeps its escapes: a pattern, with the letters
behind it, or a command. -/
def readMarked (fuel : Nat) (kind : String) (start : Cursor) : Option (ParseTree × Cursor) :=
  match start.rest with
  | [] => none
  | c :: _ =>
    let parts := readParts fuel { closing := c, escapes := true } 0 none start.next
    let (missing, behind) := readClosing c parts.behind
    let stop := if c = '/' then behind.passWhile Char.isAlpha else behind
    some (node kind start stop (parts.trees ++ missing), stop)

/-- Reads a single character behind a question mark. -/
def readCharacter (start : Cursor) : Option (ParseTree × Cursor) :=
  let stop :=
    match start.rest with
    | '?' :: '\\' :: rest => start.advance (2 + escapeLength rest)
    | _ => start.advance 2
  if stop.rest.head?.any isNameChar then none else some (leaf "character" start stop, stop)

/-- The announcement of a text on the lines behind, and how long it is. -/
def announcement? : List Char → Option (LongText × Nat)
  | '<' :: '<' :: rest =>
    let indented := rest.head?.any fun c => c = '-' || c = '~'
    let width := if indented then 3 else 2
    match rest.drop (width - 2) with
    | [] => none
    | c :: inside =>
      if c = '"' || c = '\x27' || c = '\x60' then
        let word := inside.takeWhile (· ≠ c)
        if word.length < inside.length then some (⟨word, indented⟩, width + word.length + 2)
        else none
      else if startsName c then
        let word := c :: inside.takeWhile isNameChar
        some (⟨word, indented⟩, width + word.length)
      else none
  | _ => none

/-- Reads the announcement of a text on the lines behind, which stands for the text. -/
def readAnnouncement (start : Cursor) : Option (ParseTree × Cursor) :=
  (announcement? start.rest).map fun (text, width) =>
    let stop := start.advance width
    (leaf "heredoc_beginning" start stop, { stop with announced := stop.announced ++ [text] })

/-- The character that closes what another opens. -/
def closingOf (opening : Char) : Char :=
  match opening with
  | '(' => ')'
  | '[' => ']'
  | '\x7b' => '\x7d'
  | '<' => '>'
  | c => c

/-- Reads words up to the closing character. What one word opens another may close. -/
def readWordParts (fuel : Nat) (kind : String) (enclosure : Enclosure) (depth : Nat)
    (cursor : Cursor) : List ParseTree × Cursor :=
  match fuel with
  | 0 => ([], cursor)
  | fuel + 1 =>
    let start :=
      if (enclosure.blanksToEscape? cursor.rest).isSome then cursor
      else cursor.passWhile isWordGap
    if start.rest.isEmpty || (depth = 0 && start.rest.head? = some enclosure.closing) then
      ([], start)
    else
      let parts := readParts fuel enclosure depth none start
      let (words, stop) := readWordParts fuel kind enclosure parts.depth parts.behind
      (node kind start parts.behind parts.trees :: words, stop)

/-- What a literal behind a percent sign holds: a list of words, with the kind of each, or one text.
-/
inductive PercentForm where
  | words (kind wordKind : String) (escapes : Bool)
  | text (kind : String) (escapes : Bool)

/-- The form that the letter behind a percent sign gives. -/
def percentForm? (letter : Char) : Option PercentForm :=
  match letter with
  | 'w' => some (.words "string_array" "bare_string" false)
  | 'W' => some (.words "string_array" "bare_string" true)
  | 'i' => some (.words "symbol_array" "bare_symbol" false)
  | 'I' => some (.words "symbol_array" "bare_symbol" true)
  | 'q' => some (.text "string" false)
  | 'Q' => some (.text "string" true)
  | 's' => some (.text "delimited_symbol" false)
  | 'r' => some (.text "regex" true)
  | 'x' => some (.text "subshell" true)
  | _ => none

def opensPercent (c : Char) : Bool :=
  !isNameChar c && !isWordGap c

/-- The form and the opening character of a literal behind a percent sign, and how far behind the
sign the opening character stands. Without a letter it is a string. -/
def percentOpening? : List Char → Option (PercentForm × Char × Nat)
  | '%' :: c :: rest =>
    if opensPercent c then if c = '=' then none else some (.text "string" true, c, 1)
    else
      match percentForm? c, rest with
      | some form, opening :: _ => if opensPercent opening then some (form, opening, 2) else none
      | _, _ => none
  | _ => none

/-- Reads a literal behind a percent sign. -/
def readPercent (fuel : Nat) (start : Cursor) : Option (ParseTree × Cursor) :=
  (percentOpening? start.rest).map fun (form, opening, distance) =>
    let closing := closingOf opening
    let enclosure : Enclosure :=
      { opening := if closing = opening then none else some opening, closing }
    let inside := start.advance (distance + 1)
    match form with
    | .words kind wordKind escapes =>
      let (words, behind) :=
        readWordParts fuel wordKind { enclosure with words := true, escapes } 0 inside
      let (missing, stop) := readClosing closing behind
      (node kind start stop (words ++ missing), stop)
    | .text kind escapes =>
      let (tree, behind) := readText fuel kind { enclosure with escapes } start inside
      if kind = "regex" then
        let stop := behind.passWhile Char.isAlpha
        (node kind start stop tree.children, stop)
      else (tree, behind)

/-- The cursor behind an equals sign that belongs to a symbol, and not to the arrow behind it. -/
def behindEquals (cursor : Cursor) : Cursor :=
  match cursor.rest with
  | '=' :: '>' :: _ => cursor
  | '=' :: _ => cursor.next
  | _ => cursor

/-- The operators that are names of methods, longer ones first. -/
def operatorNames : List String := [
  "[]=", "<=>", "===", "[]", "**", "<<", "<=", ">>", ">=", "==", "=~", "!=", "!~", "+@", "-@", "~@",
  "!@", "+", "-", "*", "/", "%", "<", ">", "!", "&", "|", "^", "~", "\x60"]

/-- The length of an operator that is the name of a method, zero if there is none. -/
def operatorNameLength (cursor : Cursor) : Nat :=
  ((operatorNames.find? cursor.startsWith).map String.length).getD 0

/-- The cursor behind the name of a symbol: a name or an operator, behind the sign of a variable or
without one. It may end in a question or exclamation mark. -/
def behindSymbol? (cursor : Cursor) : Option Cursor :=
  let start :=
    if cursor.startsWith "@@" then cursor.advance 2
    else if cursor.startsWith "@" || cursor.startsWith "$" then cursor.next
    else cursor
  let width := if start.rest.head?.any isNameChar then 1 else operatorNameLength start
  let word := (start.advance width).passWhile isNameChar
  if width = 0 then none
  else
    match word.rest with
    | '?' :: _ | '!' :: _ => some (behindEquals word.next)
    | _ => some (behindEquals word)

/-- Reads a symbol: a colon with a name or a quoted text behind it. -/
def readSymbol (fuel : Nat) (start : Cursor) : Option (ParseTree × Cursor) :=
  match start.next.rest.head? with
  | none => none
  | some c =>
    if c = '"' || c = '\x27' then readQuoted fuel "delimited_symbol" start start.next
    else (behindSymbol? start.next).map fun stop => (leaf "simple_symbol" start stop, stop)

def isNumberDigit (test : Char → Bool) (c : Char) : Bool :=
  c = '_' || test c

/-- The digits that belong to a base mark. -/
def baseDigits? (mark : Char) : Option (Char → Bool) :=
  match mark with
  | 'x' | 'X' => some isHex
  | 'b' | 'B' => some fun c => c = '0' || c = '1'
  | 'o' | 'O' => some isOctal
  | 'd' | 'D' => some Char.isDigit
  | _ => none

/-- The length of an exponent, zero if there is none. -/
def exponentLength : List Char → Nat
  | mark :: rest =>
    if mark = 'e' || mark = 'E' then
      let signs := countFront 1 (fun c => c = '+' || c = '-') rest
      let digits := (rest.drop signs).takeWhile (isNumberDigit Char.isDigit)
      if digits.head?.any Char.isDigit then 1 + signs + digits.length else 0
    else 0
  | [] => 0

/-- The length of a fraction, zero if there is none. -/
def fractionLength : List Char → Nat
  | '.' :: rest =>
    let digits := rest.takeWhile (isNumberDigit Char.isDigit)
    if digits.head?.any Char.isDigit then 1 + digits.length else 0
  | _ => 0

/-- The kind of a number with a fraction mark or an imaginary mark behind it, and how long the marks
are. -/
def numberMark? (rest : List Char) : Option (String × Nat) :=
  let marks := rest.takeWhile isNameChar
  if marks = ['r'] then some ("rational", 1)
  else if marks = ['i'] then some ("complex", 1)
  else if marks = ['r', 'i'] then some ("complex", 2)
  else none

/-- Reads an integer or a number with a fraction or exponent, without marks behind it. -/
def readPlainNumber (start : Cursor) : Option (ParseTree × Cursor) :=
  match start.rest with
  | [] => none
  | c :: rest =>
    if !c.isDigit then none
    else
      match c, rest.head?.bind baseDigits? with
      | '0', some test =>
        let stop := (start.advance 2).passWhile (isNumberDigit test)
        some (leaf "integer" start stop, stop)
      | _, _ =>
        let whole := start.passWhile (isNumberDigit Char.isDigit)
        let point := whole.advance (fractionLength whole.rest)
        let stop := point.advance (exponentLength point.rest)
        let kind := if stop.offset = whole.offset then "integer" else "float"
        some (leaf kind start stop, stop)

/-- Reads a number. -/
def readNumber (start : Cursor) : Option (ParseTree × Cursor) :=
  (readPlainNumber start).map fun (tree, behind) =>
    match numberMark? behind.rest with
    | some (kind, width) =>
      let stop := behind.advance width
      (node kind start stop [tree], stop)
    | none => (tree, behind)

end RailSpec.SchemaText
