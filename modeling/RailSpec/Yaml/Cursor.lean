import RailSpec.Text.Digit

/-!
The text of a settings document, read character by character. A cursor knows its line and its
column, for both decide what a text means.
-/

namespace RailSpec.Yaml

/-- The text from a place on; `leading` says that there are only blanks before it on its line. -/
structure Cursor where
  position : Nat := 0
  line : Nat := 0
  column : Nat := 0
  leading : Bool := true
  rest : List Char

def isBreak (c : Char) : Bool :=
  c = '\n' || c = '\r' || c = '\x85' || c = '\u2028' || c = '\u2029'

/-- A blank, a tab or a line break. -/
def isGap (c : Char) : Bool :=
  c = ' ' || c = '\t' || isBreak c

/-- Whether a text is at its end or goes on with a gap. -/
def atGap : List Char → Bool
  | [] => true
  | c :: _ => isGap c

namespace Cursor

def ofString (text : String) : Cursor :=
  { rest := text.toList }

/-- Passes over one character. -/
def next (cursor : Cursor) : Cursor :=
  match cursor.rest with
  | [] => cursor
  | c :: rest =>
    let position := cursor.position + 1
    if isBreak c then ⟨position, cursor.line + 1, 0, true, rest⟩
    else if c = '\uFEFF' then ⟨position, cursor.line, cursor.column, cursor.leading, rest⟩
    else ⟨position, cursor.line, cursor.column + 1, cursor.leading && c = ' ', rest⟩

def advance (cursor : Cursor) : Nat → Cursor
  | 0 => cursor
  | count + 1 => cursor.next.advance count

/-- Whether a document begins or ends here: three dashes or points at the start of a line. -/
def atMarker (cursor : Cursor) : Bool :=
  cursor.column = 0 &&
    match cursor.rest with
    | '-' :: '-' :: '-' :: behind | '.' :: '.' :: '.' :: behind => atGap behind
    | _ => false

/-- Whether an indicator stands here, with a gap behind it. -/
def atIndicator (cursor : Cursor) (indicator : Char) : Bool :=
  match cursor.rest with
  | c :: behind => c = indicator && atGap behind
  | [] => false

/-- The characters of a comment and of blank space that can be passed over; line breaks end
comments. -/
def skippable (inComment : Bool) : List Char → Nat
  | [] => 0
  | c :: rest =>
    if isBreak c then skippable false rest + 1
    else if inComment || c = '#' then skippable true rest + 1
    else if c = ' ' then skippable false rest + 1
    else 0

/-- Passes over blanks, comments and line breaks. -/
def skip (cursor : Cursor) : Cursor :=
  cursor.advance (skippable false cursor.rest)

end Cursor

/-- What a line break and the breaks behind it turn into: nothing but further breaks, or one blank.
-/
def folded (first : Char) (others : List Char) : List Char :=
  let first := if first = '\r' || first = '\x85' then '\n' else first
  if first ≠ '\n' then first :: others else if others.isEmpty then [' '] else others

/-- A line break as it is kept. -/
def keptBreak (c : Char) : Char :=
  if c = '\r' || c = '\x85' then '\n' else c

/-- The breaks among the blank characters in front of the next text. -/
def breaksIn (blank : List Char) : List Char :=
  (blank.filter isBreak).map keptBreak

/-- The gap between two parts of a scalar, and the cursor behind it: blanks stay, line breaks fold.
-/
def Cursor.gap (cursor : Cursor) (isBlank : Char → Bool) : List Char × Cursor :=
  let blanks := cursor.rest.takeWhile isBlank
  let behind := cursor.advance blanks.length
  match behind.rest with
  | c :: _ =>
    if isBreak c then
      let blank := behind.next.rest.takeWhile fun c => isBlank c || isBreak c
      (folded c (breaksIn blank), behind.next.advance blank.length)
    else (blanks, behind)
  | [] => (blanks, behind)

end RailSpec.Yaml
