import RailSpec.SchemaText.Lookahead

/-!
Statements of a schema's text: calls with their arguments and blocks, operators, assignments, and
constructs between a word and its `end`. What is not understood becomes an error in the tree, and
reading goes on behind it. Precedence among operators is not worked out, for nothing looks inside
what they join.
-/

namespace RailSpec.SchemaText

/-- An expression that was read. A call that may still be given arguments or a block has the parts
that it is made of so far. -/
structure Expression where
  start : Cursor
  tree : ParseTree
  parts : Option (List ParseTree) := none
  behind : Cursor

namespace Expression

/-- A call made of its parts. -/
def call (expression : Expression) (parts : List ParseTree) (behind : Cursor) : Expression :=
  ⟨expression.start, node "call" expression.start behind parts, some parts, behind⟩

/-- A call that has its block and takes nothing more. -/
def closed (expression : Expression) : Expression :=
  { expression with parts := none }

/-- A larger expression that begins with this one. -/
def extend (expression : Expression) (kind : String) (others : List ParseTree) (behind : Cursor) :
    Expression :=
  ⟨expression.start, node kind expression.start behind (expression.tree :: others), none, behind⟩

end Expression

/-- Whether a call has its arguments already. -/
def hasArguments (parts : List ParseTree) : Bool :=
  parts.any fun part => part.label.field = some "arguments"

/-- Whether a tree is a string, perhaps of several pieces. -/
def isString (tree : ParseTree) : Bool :=
  tree.label.kind = "string" || tree.label.kind = "chained_string"

/-- How an expression may go on where it stands. -/
structure Place where
  /-- Inside brackets a line break is a blank. -/
  enclosed : Bool := false
  /-- Arguments may follow without parentheses. -/
  loose : Bool := true
  /-- A block between `do` and `end` belongs to the expression and not to what is around it. -/
  blocks : Bool := true
  /-- The words that end the statements around it. -/
  closers : List String := []

def Place.skip (place : Place) (cursor : Cursor) : Cursor :=
  if place.enclosed then cursor.skipLines else cursor.skipBlanks

def behindLine (cursor : Cursor) : Cursor :=
  cursor.passWhile (· ≠ '\n')

/-- Statements as the body of a block. -/
def bodyOf (kind : String) (statements : List ParseTree) : List ParseTree :=
  match statements with
  | [] => []
  | first :: rest =>
    let last := (rest.getLast?.getD first).label
    [.node { first.label with kind, stop := last.stop, field := some "body" } statements]

/-- The names up to a place that ends them. -/
def readNames (fuel : Nat) (atEnd : Cursor → Bool) (cursor : Cursor) : List ParseTree × Cursor :=
  match fuel with
  | 0 => ([], cursor)
  | fuel + 1 =>
    if cursor.rest.isEmpty || atEnd cursor then ([], cursor)
    else
      match name? cursor with
      | some (_, behind) =>
        let (names, stop) := readNames fuel atEnd behind
        (leaf "identifier" cursor behind :: names, stop)
      | none => readNames fuel atEnd cursor.next

/-- Reads the parameters at the head of a block, if it has any. -/
def readParameters (fuel : Nat) (cursor : Cursor) : List ParseTree × Cursor :=
  let start := cursor.skipStatements
  if start.rest.head? = some '|' then
    let (names, behind) := readNames fuel (·.rest.head? = some '|') start.next
    let (missing, stop) := readClosing '|' behind
    ([inField "parameters" (node "block_parameters" start stop (names ++ missing))], stop)
  else ([], cursor)

/-- Whether a list of values is an assignment to several names, or of several values. -/
def assigns (values : List ParseTree) : Bool :=
  values.any fun value =>
    value.label.kind = "assignment"
      || value.children.any fun child => child.label.kind = "assignment"

mutual

/-- Reads a value with all the operators behind it. -/
def readValue (fuel : Nat) (place : Place) (cursor : Cursor) : Option Expression :=
  match fuel with
  | 0 => none
  | fuel + 1 =>
    match prefixOperator? cursor with
    | some (kind, width) =>
      let behind := cursor.advance width
      let operator := mark (String.ofList (cursor.upTo behind)) "operator" cursor behind
      match readValue fuel place (place.skip behind) with
      | some operand =>
        let children := [operator, inField "operand" operand.tree]
        some ⟨cursor, node kind cursor operand.behind children, none, operand.behind⟩
      | none =>
        if kind = "range" then some ⟨cursor, node kind cursor behind [operator], none, behind⟩
        else none
    | none => (readOperand fuel place cursor).map (readOperators fuel place)

/-- Reads the operators behind a value, with the values behind them. -/
def readOperators (fuel : Nat) (place : Place) (left : Expression) : Expression :=
  match fuel with
  | 0 => left
  | fuel + 1 =>
    let left := readCall fuel place left
    let sign := place.skip left.behind
    match assignmentLength? sign with
    | some width =>
      match readElement fuel place (sign.advance width).skipLines with
      | some (right, stop) => left.extend "assignment" [right] stop
      | none => left
    | none =>
      match operatorAt? sign with
      | some operator =>
        let behind := sign.advance operator.length
        let range := isRangeSign operator
        let start := if range then place.skip behind else behind.skipLines
        match readValue fuel { place with loose := false } start with
        | some right =>
          left.extend (if range then "range" else "binary") [right.tree] right.behind
        | none => if range then left.extend "range" [] behind else left
      | none => if sign.rest.head? = some '?' then readChoice fuel place left sign.next else left

/-- Reads the two values between which a condition decides, from behind the question mark. -/
def readChoice (fuel : Nat) (place : Place) (condition : Expression) (behind : Cursor) :
    Expression :=
  match fuel with
  | 0 => condition
  | fuel + 1 =>
    let inner := { place with loose := false }
    match readValue fuel inner behind.skipLines with
    | none => condition
    | some first =>
      let colon := first.behind.skipLines
      if colon.rest.head? = some ':' then
        match readValue fuel inner colon.next.skipLines with
        | some second =>
          condition.extend "conditional" [first.tree, second.tree] second.behind
        | none => condition
      else condition

/-- Reads arguments without parentheses and a block behind an expression, and what is asked of the
outcome. -/
def readCall (fuel : Nat) (place : Place) (expression : Expression) : Expression :=
  match fuel, expression.parts with
  | 0, _ | _, none => expression
  | fuel + 1, some parts =>
    let start := place.skip expression.behind
    let apart := expression.behind.offset < start.offset
    if place.loose && !hasArguments parts && startsArgument place.closers apart start then
      let (items, stop) := readLoose fuel { place with blocks := false } start
      let arguments := inField "arguments" (node "argument_list" start stop items)
      readBlock fuel place (expression.call (parts ++ [arguments]) stop)
    else readBlock fuel place expression

/-- Reads the block of a call, if there is one, and what is asked of the outcome. -/
def readBlock (fuel : Nat) (place : Place) (call : Expression) : Expression :=
  match fuel with
  | 0 => call
  | fuel + 1 =>
    let start := place.skip call.behind
    let block :=
      if start.rest.head? = some '\x7b' then some (readBraces fuel start)
      else if place.blocks && atWord start "do" then some (readDo fuel start)
      else none
    match block with
    | some (block, stop) =>
      let whole := call.call (call.parts.getD [] ++ [inField "block" block]) stop
      readCall fuel place (readSuffixes fuel place whole.closed)
    | none => call

/-- Reads a value or a call without loose arguments, with all that follows it closely. -/
def readOperand (fuel : Nat) (place : Place) (cursor : Cursor) : Option Expression :=
  match fuel with
  | 0 => none
  | fuel + 1 => (readPrimary fuel place cursor).map (readSuffixes fuel place)

def readPrimary (fuel : Nat) (place : Place) (cursor : Cursor) : Option Expression :=
  match fuel with
  | 0 => none
  | fuel + 1 =>
    let whole := fun (read : ParseTree × Cursor) => Expression.mk cursor read.1 none read.2
    match cursor.rest with
    | [] => none
    | '-' :: '>' :: _ => (readLambda fuel cursor).map whole
    | ':' :: ':' :: _ =>
      (name? (cursor.advance 2)).map fun (_, stop) =>
        whole (node "scope_resolution" cursor stop [leaf "constant" (cursor.advance 2) stop], stop)
    | c :: _ =>
      if c = '"' || c = '\x27' then (readStrings fuel place cursor).map whole
      else if c = ':' then (readSymbol fuel cursor).map whole
      else if c = '%' then (readPercent fuel cursor).map whole
      else if c = '/' then (readMarked fuel "regex" cursor).map whole
      else if c = '\x60' then (readMarked fuel "subshell" cursor).map whole
      else if c = '?' then (readCharacter cursor).map whole
      else if c = '<' then (readAnnouncement cursor).map whole
      else if c.isDigit then (readNumber cursor).map whole
      else if c = '-' || c = '+' then
        let operator := mark (String.singleton c) "operator" cursor cursor.next
        (readNumber cursor.next).map fun (number, stop) =>
          whole (node "unary" cursor stop [operator, inField "operand" number], stop)
      else if c = '[' then
        let (items, stop) := readBracketed fuel ']' cursor.next
        some (whole (node "array" cursor stop items, stop))
      else if c = '\x7b' then
        let (items, stop) := readBracketed fuel '\x7d' cursor.next
        some (whole (node "hash" cursor stop items, stop))
      else if c = '(' then
        let (statements, behind) := readStatements fuel .parenthesis cursor.next
        let (missing, stop) := readClosing ')' behind
        some (whole (node "parenthesized_statements" cursor stop (statements ++ missing), stop))
      else if c = '@' || c = '$' then
        let kind := if c = '@' then "instance_variable" else "global_variable"
        let stop := cursor.advance (variableLength cursor.rest)
        if stop.offset = cursor.offset then none
        else
          let tree := leaf kind cursor stop
          some ⟨cursor, tree, some [inField "method" tree], stop⟩
      else
        match name? cursor with
        | none => none
        | some (name, behind) => readWord fuel place cursor (String.ofList name) behind

/-- Reads what a word begins: a value, a construct or a call. -/
def readWord (fuel : Nat) (place : Place) (cursor : Cursor) (word : String) (behind : Cursor) :
    Option Expression :=
  match fuel with
  | 0 => none
  | fuel + 1 =>
    let whole := fun (read : ParseTree × Cursor) => Expression.mk cursor read.1 none read.2
    if valueWords.contains word then some (whole (leaf word cursor behind, behind))
    else if place.closers.contains word then none
    else if constructWords.contains word then
      let (children, stop) := readUntilEnd fuel partWords (headedWords.contains word) behind
      some (whole (node word cursor stop children, stop))
    else if word = "def" then some (whole (readMethod fuel cursor))
    else if jumpWords.contains word then
      let start := place.skip behind
      if startsArgument place.closers true start then
        let (items, stop) := readLoose fuel place start
        some (whole (node word cursor stop items, stop))
      else some (whole (leaf word cursor behind, behind))
    else
      let kind :=
        if word = "self" || word = "super" then word
        else if cursor.rest.head?.any Char.isUpper then "constant"
        else "identifier"
      let tree := leaf kind cursor behind
      let parts := [inField "method" tree]
      let marked := word.endsWith "?" || word.endsWith "!"
      some ⟨cursor, if marked then node "call" cursor behind parts else tree, some parts, behind⟩

/-- Reads a string; strings with nothing but blanks between them are one. -/
def readStrings (fuel : Nat) (place : Place) (cursor : Cursor) : Option (ParseTree × Cursor) :=
  match fuel with
  | 0 => none
  | fuel + 1 =>
    match readQuoted fuel "string" cursor cursor with
    | none => none
    | some (first, behind) =>
      match readStrings fuel place (place.skip behind) with
      | none => some (first, behind)
      | some (rest, stop) =>
        let others := if rest.label.kind = "chained_string" then rest.children else [rest]
        some (node "chained_string" cursor stop (first :: others), stop)

/-- Reads what follows an expression closely: arguments in parentheses, blocks in braces, members
and elements. -/
def readSuffixes (fuel : Nat) (place : Place) (expression : Expression) : Expression :=
  match fuel with
  | 0 => expression
  | fuel + 1 =>
    match expression.behind.toMember? with
    | some point => readMember fuel place expression point
    | none =>
      let behind := expression.behind
      let next := place.skip behind
      let bare := expression.parts.any (!hasArguments ·)
      let element := behind.offset = next.offset
        || !((bare && place.loose) || isString expression.tree)
      match behind.rest, next.rest, expression.parts with
      | ':' :: ':' :: _, _, _ => readMember fuel place expression behind
      | '(' :: _, _, some parts =>
        if bare then
          let (items, stop) := readBracketed fuel ')' behind.next
          let arguments := inField "arguments" (node "argument_list" behind stop items)
          readSuffixes fuel place (expression.call (parts ++ [arguments]) stop)
        else expression
      | _, '[' :: _, _ =>
        if element then
          let (items, stop) := readBracketed fuel ']' next.next
          readSuffixes fuel place (expression.extend "element_reference" items stop)
        else expression
      | _, '\x7b' :: _, some parts =>
        let (block, stop) := readBraces fuel next
        readSuffixes fuel place (expression.call (parts ++ [inField "block" block]) stop).closed
      | _, _, _ => expression

/-- Reads the member behind a point or two colons; without a name, the expression itself is called,
if at all. -/
def readMember (fuel : Nat) (place : Place) (expression : Expression) (point : Cursor) :
    Expression :=
  match fuel with
  | 0 => expression
  | fuel + 1 =>
    let behind := point.advance (if point.rest.head? = some '.' then 1 else 2)
    let sign := String.ofList (point.upTo behind)
    let target := behind.skipLines
    let parts := [inField "receiver" expression.tree, mark sign "operator" point behind]
    let named := fun (kind : String) (stop : Cursor) =>
      expression.call (parts ++ [inField "method" (leaf kind target stop)]) stop
    match name? target with
    | some (name, stop) =>
      if name.head?.any Char.isUpper then
        let call := named "constant" stop
        if sign = "::" then
          let scope := node "scope_resolution" expression.start stop
            [expression.tree, leaf "constant" target stop]
          readSuffixes fuel place { call with tree := scope }
        else readSuffixes fuel place call
      else readSuffixes fuel place (named "identifier" stop)
    | none =>
      if target.rest.head? = some '(' then readSuffixes fuel place (expression.call parts target)
      else if 0 < operatorNameLength target then
        readSuffixes fuel place (named "operator" (target.advance (operatorNameLength target)))
      else expression

/-- Reads a lambda: its parameters and its block. -/
def readLambda (fuel : Nat) (cursor : Cursor) : Option (ParseTree × Cursor) :=
  match fuel with
  | 0 => none
  | fuel + 1 =>
    let head := (cursor.advance 2).skipLines
    let (names, behind) :=
      if head.rest.head? = some '(' then readBracketed fuel ')' head.next
      else readNames fuel (fun here => here.rest.head? = some '\x7b' || atWord here "do") head
    let parameters :=
      if head.offset = behind.offset then []
      else [inField "parameters" (node "lambda_parameters" head behind names)]
    let start := behind.skipLines
    let body :=
      if start.rest.head? = some '\x7b' then some (readBraces fuel start)
      else if atWord start "do" then some (readDo fuel start)
      else none
    body.map fun (block, stop) =>
      (node "lambda" cursor stop (parameters ++ [inField "body" block]), stop)

/-- Reads a block in braces. -/
def readBraces (fuel : Nat) (cursor : Cursor) : ParseTree × Cursor :=
  match fuel with
  | 0 => (unread cursor cursor, cursor)
  | fuel + 1 =>
    let (parameters, behind) := readParameters fuel cursor.next
    let (statements, closing) := readStatements fuel .brace behind
    let (missing, stop) := readClosing '\x7d' closing
    (node "block" cursor stop (parameters ++ bodyOf "block_body" statements ++ missing), stop)

/-- Reads a block between `do` and `end`. -/
def readDo (fuel : Nat) (cursor : Cursor) : ParseTree × Cursor :=
  match fuel with
  | 0 => (unread cursor cursor, cursor)
  | fuel + 1 =>
    let (parameters, behind) := readParameters fuel (cursor.advance 2)
    let (statements, stop) := readUntilEnd fuel bodyWords false behind
    (node "do_block" cursor stop (parameters ++ bodyOf "body_statement" statements), stop)

/-- Reads the statements of a construct and its other parts, up to its `end`. -/
def readUntilEnd (fuel : Nat) (closers : List String) (headed : Bool) (cursor : Cursor) :
    List ParseTree × Cursor :=
  match fuel with
  | 0 => ([], cursor)
  | fuel + 1 =>
    let (statements, behind) := readPart fuel closers headed cursor
    let (others, stop) := readOtherParts fuel closers behind
    (statements ++ others, stop)

/-- Reads the parts of a construct that begin with words of their own, up to its `end`, or notes
that it is missing. -/
def readOtherParts (fuel : Nat) (closers : List String) (cursor : Cursor) :
    List ParseTree × Cursor :=
  match fuel, wordAt? closers cursor with
  | 0, _ => ([], cursor)
  | _, none => ([missing "end" cursor], cursor)
  | fuel + 1, some word =>
    let opening := cursor.advance word.length
    if word = "end" then ([], opening)
    else
      let (children, behind) := readPart fuel closers (headedWords.contains word) opening
      let (others, stop) := readOtherParts fuel closers behind
      (node word cursor behind children :: others, stop)

/-- Reads the statements of a part of a construct, and what stands before them. -/
def readPart (fuel : Nat) (closers : List String) (headed : Bool) (cursor : Cursor) :
    List ParseTree × Cursor :=
  match fuel with
  | 0 => ([], cursor)
  | fuel + 1 =>
    let (head, behind) := if headed then readHead fuel cursor else ([], cursor)
    let (statements, stop) := readStatements fuel (.words closers) behind
    (head ++ statements, stop)

/-- Reads what stands between the word that opens a part of a construct and its statements. -/
def readHead (fuel : Nat) (cursor : Cursor) : List ParseTree × Cursor :=
  match fuel with
  | 0 => ([], cursor)
  | fuel + 1 =>
    let start := (cursor.skipBlanks.passWhile fun c => c = '<' || c = '=' || c = '>').skipBlanks
    if atStatementEnd (.words partWords) start then ([], start)
    else
      let place : Place := { blocks := false, closers := partWords }
      let (items, behind) := readLoose fuel place start
      match items.getLast? with
      | none => ([], start)
      | some last =>
        let (last, stop) := readModifiers fuel place start last behind
        let opening := stop.skipBlanks
        let behind := ["do", "then"].find? (atWord opening)
        (items.dropLast ++ [last], (behind.map fun word => opening.advance word.length).getD stop)

/-- Reads the definition of a method, which ends with `end` or is an assignment. -/
def readMethod (fuel : Nat) (cursor : Cursor) : ParseTree × Cursor :=
  match fuel with
  | 0 => (unread cursor cursor, cursor)
  | fuel + 1 =>
    let name := (cursor.advance 3).skipBlanks
    let behind := name.passWhile fun c => !isWordGap c && c ≠ '(' && c ≠ ';'
    let (parameters, opening) :=
      if behind.rest.head? = some '(' then readBracketed fuel ')' behind.next
      else readNames fuel (fun here => here.rest.head?.any ['\n', ';', '='].contains) behind
    let sign := opening.skipBlanks
    let (body, stop) :=
      match assignmentLength? sign with
      | none => readUntilEnd fuel bodyWords false opening
      | some width =>
        match readStatement fuel { closers := bodyWords } (sign.advance width).skipLines with
        | some (statement, stop) => ([statement], stop)
        | none => ([unread sign sign], sign)
    (node "method" cursor stop (parameters ++ body), stop)

/-- Reads arguments, items or pairs up to the character that closes them. -/
def readBracketed (fuel : Nat) (closing : Char) (cursor : Cursor) : List ParseTree × Cursor :=
  match fuel with
  | 0 => ([missing (String.singleton closing) cursor], cursor)
  | fuel + 1 =>
    let start := cursor.skipLines
    if start.rest.isEmpty || start.rest.head? = some closing then readClosing closing start
    else
      match readArgument fuel { enclosed := true } start with
      | none =>
        let stop := start.passWhile fun c => c ≠ closing && c ≠ '\n'
        let (missing, behind) := readClosing closing stop
        (unread start stop :: missing, behind)
      | some (item, behind) =>
        let separator := behind.skipLines
        if separator.rest.head? = some ',' then
          let (items, stop) := readBracketed fuel closing separator.next
          (item :: items, stop)
        else
          let (missing, stop) := readClosing closing separator
          (item :: missing, stop)

/-- Reads arguments that have no parentheses, the first at the cursor. -/
def readLoose (fuel : Nat) (place : Place) (cursor : Cursor) : List ParseTree × Cursor :=
  match fuel with
  | 0 => ([], cursor)
  | fuel + 1 =>
    match readArgument fuel place cursor with
    | none => ([], cursor)
    | some (item, behind) =>
      let separator := place.skip behind
      if separator.rest.head? = some ',' then
        let (items, stop) := readLoose fuel place separator.next.skipLines
        (item :: items, if items.isEmpty then behind else stop)
      else ([item], behind)

/-- Reads an argument: a pair, a splat or a value. -/
def readArgument (fuel : Nat) (place : Place) (cursor : Cursor) : Option (ParseTree × Cursor) :=
  match fuel with
  | 0 => none
  | fuel + 1 =>
    match label? cursor with
    | some (key, behind) => some (readPair fuel place cursor key behind)
    | none =>
      (readElement fuel place cursor).map fun (item, behind) =>
        let arrow := place.skip behind
        if item.label.kind = "string" && atColon behind then
          readPair fuel place cursor item behind.next
        else if arrow.startsWith "=>" then readPair fuel place cursor item (arrow.advance 2)
        else (item, behind)

/-- Reads a splat or a value. -/
def readElement (fuel : Nat) (place : Place) (cursor : Cursor) : Option (ParseTree × Cursor) :=
  match fuel with
  | 0 => none
  | fuel + 1 =>
    let splat := fun kind width =>
      let behind := cursor.advance width
      match readValue fuel place behind with
      | some operand => some (node kind cursor operand.behind [operand.tree], operand.behind)
      | none => some (leaf kind cursor behind, behind)
    match cursor.rest with
    | '*' :: '*' :: _ => splat "hash_splat_argument" 2
    | '*' :: _ => splat "splat_argument" 1
    | '&' :: _ => splat "block_argument" 1
    | _ => (readValue fuel place cursor).map fun value => (value.tree, value.behind)

/-- Reads the value of a pair, if it has one, from behind what follows its key. -/
def readPair (fuel : Nat) (place : Place) (start : Cursor) (key : ParseTree) (behind : Cursor) :
    ParseTree × Cursor :=
  match fuel with
  | 0 => (node "pair" start behind [inField "key" key], behind)
  | fuel + 1 =>
    match readValue fuel place behind.skipLines with
    | some value =>
      (node "pair" start value.behind [inField "key" key, inField "value" value.tree], value.behind)
    | none => (node "pair" start behind [inField "key" key], behind)

/-- Reads statements up to what ends them. -/
def readStatements (fuel : Nat) (ending : Ending) (cursor : Cursor) : List ParseTree × Cursor :=
  match fuel with
  | 0 => ([], cursor)
  | fuel + 1 =>
    let start := cursor.skipStatements
    if atEnding ending start then ([], start)
    else
      match readStatement fuel { closers := ending.closers } start with
      | none =>
        let stop := behindLine start
        let (statements, behind) := readStatements fuel ending stop
        (unread start stop :: statements, behind)
      | some (statement, behind) =>
        let rest := behind.skipBlanks
        if atStatementEnd ending rest then
          let (statements, behind) := readStatements fuel ending behind
          (statement :: statements, behind)
        else
          let stop := behindLine rest
          let (statements, behind) := readStatements fuel ending stop
          (statement :: unread rest stop :: statements, behind)

/-- Reads a statement: values, of which there may be several if they are assigned, and the
conditions behind them. -/
def readStatement (fuel : Nat) (place : Place) (cursor : Cursor) : Option (ParseTree × Cursor) :=
  match fuel with
  | 0 => none
  | fuel + 1 =>
    match wordAt? ["alias", "undef"] cursor with
    | some word =>
      let stop := cursor.passWhile fun c => c ≠ '\n' && c ≠ ';' && c ≠ '#'
      some (leaf word cursor stop, stop)
    | none =>
      (readElement fuel place cursor).map fun (first, behind) =>
        let separator := behind.skipBlanks
        let (others, last) :=
          if separator.rest.head? = some ',' then readLoose fuel place separator.next.skipLines
          else ([], behind)
        if assigns (first :: others) && !others.isEmpty then
          readModifiers fuel place cursor (node "assignment" cursor last (first :: others)) last
        else readModifiers fuel place cursor first behind

/-- Reads the conditions behind a statement, and the statements joined to it by words. -/
def readModifiers (fuel : Nat) (place : Place) (start : Cursor) (statement : ParseTree)
    (behind : Cursor) : ParseTree × Cursor :=
  match fuel with
  | 0 => (statement, behind)
  | fuel + 1 =>
    let here := behind.skipBlanks
    match wordAt? (joiningWords ++ modifierWords) here with
    | none => (statement, behind)
    | some word =>
      match readValue fuel place (here.advance word.length).skipLines with
      | none => (statement, behind)
      | some value =>
        let stop := value.behind
        let tree :=
          if joiningWords.contains word then node "binary" start stop [statement, value.tree]
          else node (word ++ "_modifier") start stop [inField "body" statement, value.tree]
        readModifiers fuel place start tree stop

end

end RailSpec.SchemaText
