import RailSpec.Yaml.Quoted
import RailSpec.Yaml.Scalar

/-!
Settings documents: scalars, sequences and mappings, told apart by indentation or by brackets. A
scalar is a key if a colon follows it on its own line; the entries of a mapping or sequence begin
in the same column, all but the first on a line of their own. Whatever else a text may hold breaks
its form.
-/

namespace RailSpec.Yaml

inductive Tree where
  | plain (text : List Char)
  | quoted (text : List Char)
  | sequence (items : List Tree)
  | mapping (entries : List (Tree × Tree))
  deriving Inhabited

/-- The most characters from the start of a key to its colon. -/
def keyLimit : Nat := 1024

/-- Whether something that was read from one cursor up to another is a key: a colon follows it on
its own line, in a block with a gap behind it. -/
def isKey (flow : Bool) (start behind : Cursor) : Bool :=
  start.line = behind.line && behind.position ≤ start.position + keyLimit &&
    if flow then behind.rest.head? = some ':' else behind.atIndicator ':'

/-- Reads a scalar. -/
def readScalar (flow : Bool) (indent : Int) (cursor : Cursor) : Option (Tree × Cursor) :=
  let fuel := cursor.rest.length + 1
  match cursor.rest with
  | [] => none
  | c :: rest =>
    if c = '"' || c = '\x27' then
      (readQuoted fuel c cursor.next).map fun (text, behind) => (.quoted text, behind)
    else if startsPlain flow (c :: rest) then
      let (text, behind) := readPlain fuel flow indent [] cursor
      some (.plain text, behind)
    else none

/-- The next character of a flow collection, none at a document marker. -/
def flowNext? (cursor : Cursor) : Option Char :=
  if cursor.atMarker then none else cursor.rest.head?

mutual

/-- Reads a scalar or a flow collection. -/
def readFlow (fuel : Nat) (flow : Bool) (indent : Int) (cursor : Cursor) : Option (Tree × Cursor) :=
  match fuel with
  | 0 => none
  | fuel + 1 =>
    match flowNext? cursor with
    | some '[' => readItems fuel cursor.next.skip
    | some '\x7b' => readPairs fuel cursor.next.skip
    | some _ => readScalar flow indent cursor
    | none => none

/-- Reads the value behind a key's colon in a flow collection; there may be none. -/
def readFlowValue (fuel : Nat) (cursor : Cursor) : Option (Tree × Cursor) :=
  match fuel with
  | 0 => none
  | fuel + 1 =>
    match flowNext? cursor with
    | some ',' | some ']' | some '\x7d' => some (.plain [], cursor)
    | _ => readFlow fuel true 0 cursor

/-- Reads items up to the closing bracket. An item with a colon behind it is a mapping of one
entry. -/
def readItems (fuel : Nat) (cursor : Cursor) : Option (Tree × Cursor) :=
  match fuel with
  | 0 => none
  | fuel + 1 =>
    if flowNext? cursor = some ']' then some (.sequence [], cursor.next)
    else do
      let (item, behind) ← readFlow fuel true 0 cursor
      let colon := behind.skip
      let (item, behind) ←
        if isKey true cursor colon then
          (readFlowValue fuel colon.next.skip).map
            fun (value, behind) => (Tree.mapping [(item, value)], behind)
        else some (item, behind)
      let separator := behind.skip
      match flowNext? separator with
      | some ',' =>
        match ← readItems fuel separator.next.skip with
        | (.sequence items, behind) => some (.sequence (item :: items), behind)
        | _ => none
      | some ']' => some (.sequence [item], separator.next)
      | _ => none

/-- Reads entries up to the closing brace. A key without a colon has no value. -/
def readPairs (fuel : Nat) (cursor : Cursor) : Option (Tree × Cursor) :=
  match fuel with
  | 0 => none
  | fuel + 1 =>
    if flowNext? cursor = some '\x7d' then some (.mapping [], cursor.next)
    else do
      let (key, behind) ← readFlow fuel true 0 cursor
      let colon := behind.skip
      let (value, behind) ←
        if isKey true cursor colon then readFlowValue fuel colon.next.skip
        else some (Tree.plain [], behind)
      let separator := behind.skip
      match flowNext? separator with
      | some ',' =>
        match ← readPairs fuel separator.next.skip with
        | (.mapping entries, behind) => some (.mapping ((key, value) :: entries), behind)
        | _ => none
      | some '\x7d' => some (.mapping [(key, value)], separator.next)
      | _ => none

end

/-- Whether a block has ended: at the end of the text or of the document. -/
def atBlockEnd (cursor : Cursor) : Bool :=
  cursor.rest.isEmpty || cursor.atMarker

mutual

/-- Reads the node that begins behind an indicator or at the start of a document. It stands further
in than `indent`, except that a sequence may begin in the column of the mapping around it. A
collection may begin behind the indicator itself only if `fresh`. -/
def readBlock (fuel : Nat) (indent : Int) (inMapping fresh : Bool) (cursor : Cursor) :
    Option (Tree × Cursor) :=
  match fuel with
  | 0 => none
  | fuel + 1 =>
    let start := cursor.skip
    let fresh := fresh || cursor.line < start.line
    if atBlockEnd start then some (.plain [], start)
    else if start.atIndicator '-' && (indent < start.column || (inMapping && indent = start.column))
    then if fresh then readSequence fuel start.column true start else none
    else if start.column ≤ indent then some (.plain [], start)
    else do
      let (node, behind) ← readFlow fuel false indent start
      if fresh && isKey false start behind.skip then readMapping fuel start.column true start
      else some (node, behind.skip)

/-- Reads the items of a sequence in one column; `first` says that no item is read yet. -/
def readSequence (fuel : Nat) (column : Nat) (first : Bool) (cursor : Cursor) :
    Option (Tree × Cursor) :=
  match fuel with
  | 0 => none
  | fuel + 1 =>
    if atBlockEnd cursor || cursor.column < column || !cursor.atIndicator '-' then
      some (.sequence [], cursor)
    else if cursor.column ≠ column || !(first || cursor.leading) then none
    else do
      let (item, behind) ← readBlock fuel column false true cursor.next
      match ← readSequence fuel column false behind.skip with
      | (.sequence items, behind) => some (.sequence (item :: items), behind)
      | _ => none

/-- Reads the entries of a mapping in one column; `first` says that no entry is read yet. -/
def readMapping (fuel : Nat) (column : Nat) (first : Bool) (cursor : Cursor) :
    Option (Tree × Cursor) :=
  match fuel with
  | 0 => none
  | fuel + 1 =>
    if atBlockEnd cursor || cursor.column < column then some (.mapping [], cursor)
    else if cursor.column ≠ column || !(first || cursor.leading) then none
    else do
      let (key, behind) ← readFlow fuel false column cursor
      let colon := behind.skip
      if isKey false cursor colon then
        let (value, behind) ← readBlock fuel column true false colon.next
        match ← readMapping fuel column false behind.skip with
        | (.mapping entries, behind) => some (.mapping ((key, value) :: entries), behind)
        | _ => none
      else none

end

/-- Passes over marks that end a document. -/
def skipEnds (fuel : Nat) (cursor : Cursor) : Cursor :=
  match fuel with
  | 0 => cursor
  | fuel + 1 =>
    let here := cursor.skip
    if here.atMarker && here.rest.head? = some '.' then skipEnds fuel (here.advance 3) else here

/-- The characters that a document may hold. -/
def isAllowed (c : Char) : Bool :=
  c = '\t' || c = '\n' || c = '\r' || c = '\x85' || (0x20 ≤ c.toNat && c.toNat ≤ 0x7E)
    || (0xA0 ≤ c.toNat && c.toNat ≤ 0xFFFD) || 0x10000 ≤ c.toNat

/-- The tree of a text that holds one document. A mark that ends a document cannot come first. -/
def readDocument (text : String) : Option Tree :=
  if !text.toList.all isAllowed then none
  else
    let fuel := 3 * text.length + 4
    let cursor := Cursor.ofString text
    let start := (if cursor.rest.head? = some '\uFEFF' then cursor.next else cursor).skip
    let marked := start.atMarker && start.rest.head? = some '-'
    let body := if marked then start.advance 3 else start
    if start.atMarker && !marked then none
    else do
      let (tree, behind) ← readBlock fuel (-1) false (!marked) body
      if (skipEnds fuel behind).rest.isEmpty then some tree else none

end RailSpec.Yaml
