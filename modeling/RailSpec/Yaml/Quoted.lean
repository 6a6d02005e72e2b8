import RailSpec.Yaml.Cursor

/-!
Scalars of a settings document: plain ones, and those between single or double quotes. Lines of a
scalar are joined by blanks, and an empty line between them stands for a line break.
-/

namespace RailSpec.Yaml

/-- The characters that part a flow collection. -/
def flowMarks : List Char :=
  [',', '[', ']', '\x7b', '\x7d']

/-- The characters with which no scalar begins, besides those that may if something follows. -/
def indicators : List Char :=
  flowMarks ++ ['#', '&', '*', '!', '|', '>', '\x27', '"', '%', '@', '\x60']

/-- How many characters a plain scalar has before its next gap or end. -/
def plainRun (flow : Bool) : List Char → Nat
  | [] => 0
  | c :: rest =>
    if isGap c then 0
    else if c = ':' && (atGap rest || (flow && rest.head?.any flowMarks.contains)) then 0
    else if flow && (c = '?' || flowMarks.contains c) then 0
    else plainRun flow rest + 1

def isPlainBlank (c : Char) : Bool :=
  c = ' '

/-- Reads a plain scalar. In a block its further lines have to be indented by more than `indent`. -/
def readPlain (fuel : Nat) (flow : Bool) (indent : Int) (gap : List Char) (cursor : Cursor) :
    List Char × Cursor :=
  match fuel with
  | 0 => ([], cursor)
  | fuel + 1 =>
    let count := plainRun flow cursor.rest
    if count = 0 || cursor.rest.head? = some '#' then ([], cursor)
    else
      let run := cursor.rest.take count
      let behind := cursor.advance count
      let (gapBehind, next) := behind.gap isPlainBlank
      if gapBehind.isEmpty || next.rest.head? = some '#' || next.atMarker
          || (!flow && next.column ≤ indent) then (gap ++ run, next)
      else
        let (text, cursor) := readPlain fuel flow indent gapBehind next
        (gap ++ run ++ text, cursor)

/-- Whether a plain scalar can begin here. -/
def startsPlain (flow : Bool) : List Char → Bool
  | [] => false
  | c :: rest =>
    if c = '-' then !atGap rest
    else if c = '?' || c = ':' then !flow && !atGap rest
    else !isGap c && !indicators.contains c

def isQuotedBlank (c : Char) : Bool :=
  c = ' ' || c = '\t'

/-- The character of a short escape. -/
def shortEscape? (c : Char) : Option Char :=
  match c with
  | '0' => some '\x00'
  | 'a' => some '\x07'
  | 'b' => some '\x08'
  | 't' | '\t' => some '\t'
  | 'n' => some '\n'
  | 'v' => some '\x0b'
  | 'f' => some '\x0c'
  | 'r' => some '\r'
  | 'e' => some '\x1b'
  | ' ' | '"' | '\\' | '/' => some c
  | 'N' => some '\x85'
  | '_' => some '\xa0'
  | 'L' => some '\u2028'
  | 'P' => some '\u2029'
  | _ => none

/-- How many digits the code of a character has behind its mark. -/
def codeLength? (c : Char) : Option Nat :=
  match c with
  | 'x' => some 2
  | 'u' => some 4
  | 'U' => some 8
  | _ => none

/-- The character with a code in hexadecimal digits. -/
def codeCharacter? (digits : List Char) : Option Char :=
  (digits.mapM fun c => (Text.baseValue? c).filter (· < 16)).bind fun values =>
    let code := values.foldl (fun value digit => value * 16 + digit) 0
    if code.isValidChar then some (Char.ofNat code) else none

/-- What an escape stands for, and the cursor behind it. -/
def escape? (cursor : Cursor) : Option (List Char × Cursor) :=
  match cursor.rest with
  | [] => none
  | c :: rest =>
    if isBreak c then
      let blank := cursor.next.rest.takeWhile fun c => isQuotedBlank c || isBreak c
      let behind := cursor.next.advance blank.length
      if behind.atMarker then none else some (breaksIn blank, behind)
    else
      match codeLength? c with
      | some count =>
        if rest.length < count then none
        else (codeCharacter? (rest.take count)).map fun code => ([code], cursor.advance (count + 1))
      | none => (shortEscape? c).map fun code => ([code], cursor.next)

/-- Reads a quoted scalar from behind its opening quote. -/
def readQuoted (fuel : Nat) (quote : Char) (cursor : Cursor) : Option (List Char × Cursor) :=
  match fuel with
  | 0 => none
  | fuel + 1 =>
    let followedBy := fun (part : List Char × Cursor) =>
      (readQuoted fuel quote part.2).map fun (text, cursor) => (part.1 ++ text, cursor)
    match cursor.rest with
    | [] => none
    | c :: rest =>
      if c = quote then
        if quote = '\x27' && rest.head? = some quote then followedBy ([quote], cursor.advance 2)
        else some ([], cursor.next)
      else if isGap c then
        let (gap, behind) := cursor.gap isQuotedBlank
        if behind.atMarker then none else followedBy (gap, behind)
      else if c = '\\' && quote = '"' then (escape? cursor.next).bind followedBy
      else followedBy ([c], cursor.next)

end RailSpec.Yaml
