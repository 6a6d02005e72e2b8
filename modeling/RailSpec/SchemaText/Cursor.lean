import RailSpec.ParseTree
import RailSpec.Text.Utf8

/-!
The text of a schema, read from a cursor that knows its byte offset and its row and column. What is
read becomes a tree between two cursors.
-/

namespace RailSpec.SchemaText

def isBlank (c : Char) : Bool :=
  c = ' ' || c = '\t' || c = '\r' || c = '\x0b' || c = '\x0c'

/-- A text that one line announces and the lines behind it hold, up to a line with nothing but its
word, which may be indented. -/
structure LongText where
  word : List Char
  indented : Bool
  deriving Repr

def LongText.closes (text : LongText) (line : List Char) : Bool :=
  let line := if text.indented then line.dropWhile isBlank else line
  text.word.isPrefixOf line && (line.drop text.word.length).all isBlank

/-- How many characters announced texts take from the start of a line on. -/
def announcedLength (fuel : Nat) (texts : List LongText) (rest : List Char) : Nat :=
  match fuel, texts with
  | 0, _ | _, [] => 0
  | fuel + 1, text :: others =>
    let line := rest.takeWhile (· ≠ '\n')
    let left := if text.closes line then others else texts
    line.length + 1 + announcedLength fuel left (rest.drop (line.length + 1))

/-- The text from a place on; rows, columns and offsets count from zero, the latter two in bytes.
The texts that the line has announced begin behind its end. -/
structure Cursor where
  offset : Nat := 0
  row : Nat := 0
  column : Nat := 0
  rest : List Char
  announced : List LongText := []

namespace Cursor

def ofString (text : String) : Cursor :=
  { rest := text.toList }

/-- Passes over one character, and with the end of a line over the texts that it announced. -/
def next (cursor : Cursor) : Cursor :=
  match cursor.rest with
  | [] => cursor
  | c :: rest =>
    let width := Text.Utf8.width c
    if c = '\n' then
      let texts :=
        if cursor.announced.isEmpty then []
        else rest.take (announcedLength rest.length cursor.announced rest)
      { offset := texts.foldl (fun offset c => offset + Text.Utf8.width c) (cursor.offset + width)
        row := cursor.row + 1 + texts.countP (· = '\n')
        column := 0
        rest := rest.drop texts.length }
    else { cursor with offset := cursor.offset + width, column := cursor.column + width, rest }

def advance (cursor : Cursor) : Nat → Cursor
  | 0 => cursor
  | count + 1 => cursor.next.advance count

/-- The cursor behind the characters at the front that pass a test. -/
def passWhile (cursor : Cursor) (test : Char → Bool) : Cursor :=
  cursor.advance (cursor.rest.takeWhile test).length

def startsWith (cursor : Cursor) (text : String) : Bool :=
  text.toList.isPrefixOf cursor.rest

/-- The first characters of a text, as many as fit into a number of bytes. -/
def takeBytes : Nat → List Char → List Char
  | bytes, c :: rest =>
    if bytes = 0 then [] else c :: takeBytes (bytes - Text.Utf8.width c) rest
  | _, [] => []

/-- The characters up to a later cursor. -/
def upTo (cursor behind : Cursor) : List Char :=
  takeBytes (behind.offset - cursor.offset) cursor.rest

end Cursor

/-- The label of what is between two cursors. -/
def labelOf (kind : String) (start stop : Cursor) : ParseTree.Label :=
  { kind, start := start.offset, stop := stop.offset, row := start.row, column := start.column }

/-- A tree between two cursors. -/
def node (kind : String) (start stop : Cursor) (children : List ParseTree) : ParseTree :=
  .node (labelOf kind start stop) children

def leaf (kind : String) (start stop : Cursor) : ParseTree :=
  node kind start stop []

/-- A tree in a field of the tree around it. -/
def inField (field : String) : ParseTree → ParseTree
  | .node label children => .node { label with field := some field } children

/-- Punctuation in a field. -/
def mark (kind field : String) (start stop : Cursor) : ParseTree :=
  .node { labelOf kind start stop with field := some field, named := false } []

/-- A stand-in for punctuation or a keyword that should be here. -/
def missing (kind : String) (here : Cursor) : ParseTree :=
  .node { labelOf kind here here with named := false, missing := true } []

/-- A stretch of text that could not be read. -/
def unread (start stop : Cursor) : ParseTree :=
  leaf "ERROR" start stop

/-- What is being passed over: blanks, the break of a line that goes on, a comment to the end of its
line, and a comment from a line with `=begin` to a line with `=end`. -/
inductive Passing where
  | blanks
  | joint
  | comment
  | opening
  | longComment

/-- Whether a line break follows that a backslash takes away. -/
def joinsLines (rest : List Char) : Bool :=
  "\n".toList.isPrefixOf rest || "\r\n".toList.isPrefixOf rest

/-- How many characters of blank space can be passed over, with line breaks and comments if
`acrossLines`, and with semicolons if `acrossStatements`. A backslash joins two lines. -/
def passable (acrossLines acrossStatements : Bool) (passing : Passing) : List Char → Nat
  | [] => 0
  | c :: rest =>
    let goOn := fun passing => passable acrossLines acrossStatements passing rest + 1
    match passing with
    | .joint => goOn (if c = '\n' then .blanks else .joint)
    | .comment => goOn (if c = '\n' then .blanks else .comment)
    | .opening => goOn (if c = '\n' then .longComment else .opening)
    | .longComment =>
      goOn (if c = '=' && "end".toList.isPrefixOf rest then .comment else .longComment)
    | .blanks =>
      if isBlank c || (acrossLines && c = '\n') || (acrossStatements && c = ';') then goOn .blanks
      else if c = '\\' && joinsLines rest then goOn .joint
      else if acrossLines && c = '#' then goOn .comment
      else if acrossLines && c = '=' && "begin".toList.isPrefixOf rest then goOn .opening
      else 0

namespace Cursor

/-- Passes over blank space, and over announced texts if it goes on behind their line. -/
def skip (acrossLines acrossStatements : Bool) (cursor : Cursor) : Cursor :=
  let count := passable acrossLines acrossStatements .blanks
  if cursor.announced.isEmpty then cursor.advance (count cursor.rest)
  else
    let behind := cursor.advance (count (cursor.rest.takeWhile (· ≠ '\n')))
    if acrossLines && behind.rest.head? = some '\n' then
      behind.next.advance (count behind.next.rest)
    else behind

/-- Passes over blanks in a line. -/
def skipBlanks : Cursor → Cursor :=
  skip false false

/-- Passes over blanks, line breaks and comments. -/
def skipLines : Cursor → Cursor :=
  skip true false

/-- Passes over all that may stand between two statements. -/
def skipStatements : Cursor → Cursor :=
  skip true true

/-- The point in front of a member, maybe on a later line, which the expression before it then
reaches. Two points are a range, and end a line like any other operator. -/
def toMember? (cursor : Cursor) : Option Cursor :=
  let point := cursor.skipLines
  match point.rest with
  | '.' :: '.' :: _ => none
  | '.' :: _ | '&' :: '.' :: _ => some point
  | _ => none

end Cursor

/-- Characters of other scripts are letters here. -/
def startsName (c : Char) : Bool :=
  c.isAlpha || c = '_' || 128 ≤ c.toNat

def isNameChar (c : Char) : Bool :=
  startsName c || c.isDigit

/-- The cursor behind a name, which may end in a question or exclamation mark. -/
def behindName (cursor : Cursor) : Cursor :=
  let behind := cursor.passWhile isNameChar
  match behind.rest with
  | '?' :: '=' :: '=' :: _ | '!' :: '=' :: '=' :: _ => behind.next
  | '?' :: '=' :: _ | '!' :: '=' :: _ => behind
  | '?' :: _ | '!' :: _ => behind.next
  | _ => behind

/-- A name at a cursor, and the cursor behind it. -/
def name? (cursor : Cursor) : Option (List Char × Cursor) :=
  if cursor.rest.head?.any startsName then
    let behind := behindName cursor
    some (cursor.upTo behind, behind)
  else none

/-- Whether a word stands at a cursor, and no longer name that begins with it. -/
def atWord (cursor : Cursor) (word : String) : Bool :=
  match name? cursor with
  | some (name, _) => name == word.toList
  | none => false

end RailSpec.SchemaText
