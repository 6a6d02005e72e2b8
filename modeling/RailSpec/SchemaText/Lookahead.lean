import RailSpec.SchemaText.Literal

/-!
What a cursor stands in front of: reserved words, labels, assignments, operators, arguments that
have no parentheses, and the ends of statements.
-/

namespace RailSpec.SchemaText

def valueWords : List String := ["true", "false", "nil"]

/-- Words that open a construct that `end` closes. -/
def constructWords : List String :=
  ["if", "unless", "while", "until", "case", "for", "begin", "class", "module"]

/-- Words that leave a block or start it again, with a value or without. -/
def jumpWords : List String := ["return", "break", "next", "redo", "retry", "yield"]

/-- Words that end the statements of a block or a method; all but the last open a new part of it. -/
def bodyWords : List String := ["rescue", "else", "ensure", "end"]

/-- Words that end the statements of other constructs. -/
def partWords : List String := bodyWords ++ ["elsif", "when", "in", "then"]

/-- Words behind which a condition or a pattern stands before the statements. -/
def headedWords : List String :=
  ["if", "unless", "while", "until", "case", "for", "class", "module", "elsif", "when", "in",
    "rescue"]

/-- Words that put a condition behind a statement. -/
def modifierWords : List String := ["if", "unless", "while", "until", "rescue"]

/-- Words that join two statements. -/
def joiningWords : List String := ["and", "or", "in"]

/-- Words behind an expression that are no argument of it. -/
def followingWords : List String := "do" :: joiningWords ++ modifierWords

/-- The first of some words that stands at a cursor. -/
def wordAt? (words : List String) (cursor : Cursor) : Option String :=
  words.find? (atWord cursor)

/-- A key with a colon right behind it, and the cursor behind the colon. -/
def label? (cursor : Cursor) : Option (ParseTree × Cursor) :=
  match name? cursor with
  | some (_, behind) =>
    match behind.rest with
    | ':' :: ':' :: _ => none
    | ':' :: _ => some (leaf "hash_key_symbol" cursor behind, behind.next)
    | _ => none
  | none => none

/-- Whether a single colon stands at a cursor. -/
def atColon (cursor : Cursor) : Bool :=
  match cursor.rest with
  | ':' :: ':' :: _ => false
  | ':' :: _ => true
  | _ => false

/-- The signs that assign the result of an operator. -/
def updateSigns : List String :=
  ["**=", "||=", "&&=", "<<=", ">>=", "+=", "-=", "*=", "/=", "%=", "|=", "&=", "^="]

/-- The length of a sign that assigns. -/
def assignmentLength? (cursor : Cursor) : Option Nat :=
  match cursor.rest with
  | '=' :: c :: _ => if ['=', '~', '>'].contains c then none else some 1
  | ['='] => some 1
  | _ => (updateSigns.find? cursor.startsWith).map String.length

/-- The operators between two values, longer ones first. -/
def operators : List String := [
  "===", "<=>", "...", "**", "==", "=~", "!=", "!~", "<=", "<<", ">=", ">>", "&&", "||", "..", "<",
  ">", "&", "|", "+", "-", "*", "/", "%", "^"]

/-- The operator between two values at a cursor. -/
def operatorAt? (cursor : Cursor) : Option String :=
  if cursor.startsWith "->" then none else operators.find? cursor.startsWith

/-- Two or three points, which need no value behind them. -/
def isRangeSign (operator : String) : Bool :=
  operator = ".." || operator = "..."

/-- The kind and length of an operator in front of a value. A sign that belongs to a number is part
of the number. -/
def prefixOperator? (cursor : Cursor) : Option (String × Nat) :=
  match cursor.rest with
  | '!' :: c :: _ => if c = '=' || c = '~' then none else some ("unary", 1)
  | '~' :: _ => some ("unary", 1)
  | '-' :: c :: _ => if c = '>' || c.isDigit then none else some ("unary", 1)
  | '+' :: c :: _ => if c.isDigit then none else some ("unary", 1)
  | '.' :: '.' :: '.' :: _ => some ("range", 3)
  | '.' :: '.' :: _ => some ("range", 2)
  | _ => (wordAt? ["not", "defined?"] cursor).map fun word => ("unary", word.length)

/-- Whether something stands right behind a sign that then belongs to it. -/
def touches (rest : List Char) : Bool :=
  rest.head?.any fun c => !isWordGap c && c ≠ '='

/-- Whether an argument without parentheses begins at a cursor. Some begin right behind the name of
the method, and others only `apart` from it. A plus sign always adds. The words that end the
statements around are no arguments. -/
def startsArgument (closers : List String) (apart : Bool) (cursor : Cursor) : Bool :=
  match cursor.rest with
  | [] => false
  | c :: rest =>
    match c with
    | '"' | '\x27' | '\x60' | '@' | '$' => true
    | ':' =>
      match rest with
      | ':' :: d :: _ => apart && startsName d
      | d :: _ => d = '"' || d = '\x27' || (behindSymbol? cursor.next).isSome
      | [] => false
    | '-' => rest.head? = some '>' || (apart && touches rest)
    | '!' => rest.head?.any fun d => d ≠ '=' && d ≠ '~'
    | '~' => true
    | '[' | '(' => apart
    | '*' => apart && touches (rest.dropWhile (· = '*'))
    | '&' => apart && touches rest && rest.head?.any fun d => d ≠ '&' && d ≠ '.'
    | '/' => apart && touches rest
    | '%' => apart && (percentOpening? cursor.rest).isSome
    | '?' => apart && touches rest && (readCharacter cursor).isSome
    | '<' => apart && (announcement? cursor.rest).isSome
    | _ =>
      apart && (c.isDigit || (label? cursor).isSome
        || (startsName c && (wordAt? (followingWords ++ closers) cursor).isNone))

/-- What ends a run of statements. -/
inductive Ending where
  | text
  | brace
  | parenthesis
  | words (closers : List String)

/-- The words that end statements. Elsewhere they are names like any others. -/
def Ending.closers : Ending → List String
  | .words closers => closers
  | _ => []

/-- The mark behind which the rest of a text is no schema, on a line of its own. -/
def atTextEnd (cursor : Cursor) : Bool :=
  cursor.startsWith "__END__\n" || cursor.startsWith "__END__\r"

def atEnding (ending : Ending) (cursor : Cursor) : Bool :=
  cursor.rest.isEmpty ||
    match ending with
    | .text => atTextEnd cursor
    | .brace => cursor.rest.head? = some '\x7d'
    | .parenthesis => cursor.rest.head? = some ')'
    | .words closers => (wordAt? closers cursor).isSome

/-- Whether a statement is over. -/
def atStatementEnd (ending : Ending) (cursor : Cursor) : Bool :=
  atEnding ending cursor || (cursor.rest.head?.any fun c => c = '\n' || c = ';' || c = '#')

end RailSpec.SchemaText
