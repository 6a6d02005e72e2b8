import RailSpec.Text.Blank

/-! Texts as lines: indentation, joining and counting. -/

namespace RailSpec.Text

/-- Joins texts with a separator between neighbours. -/
def joined (separator : String) : List String → String
  | [] => ""
  | [text] => text
  | text :: rest => text ++ separator ++ joined separator rest

/-- Lines joined by line feeds, with none after the last. -/
def unlines (lines : List String) : String :=
  joined "\n" lines

/-- Indents a line unless it is blank. -/
def indentLine (width : Nat) (line : String) : String :=
  if isBlankText line then line else String.ofList (List.replicate width ' ') ++ line

/-- Indents every line that is not blank by `level` times `size` spaces; a negative width is none.
-/
def indentLines (lines : List String) (level size : Int) : List String :=
  lines.map (indentLine (level * size).toNat)

/-- As many blanks as a text lacks of a width. -/
def padding (width : Nat) (text : String) : String :=
  String.ofList (List.replicate (width - text.length) ' ')

/-- Whether a text ends in a line feed. -/
def endsLine (text : String) : Bool :=
  text.toList.getLast? == some '\n'

/-- Lines of a document: its line feeds, and one more for a last line that has none. -/
def lineCount (text : String) : Nat :=
  text.toList.count '\n' + if endsLine text then 0 else 1

/-- Lines of a file's content: as for a document, but an empty file has none. -/
def contentLines (text : String) : Nat :=
  if text = "" then 0 else lineCount text

/-- Reads every line ending, also `\r\n` and a lone `\r`, as a line feed. -/
def unifyLineEnds : List Char → List Char
  | '\r' :: '\n' :: rest => '\n' :: unifyLineEnds rest
  | '\r' :: rest => '\n' :: unifyLineEnds rest
  | c :: rest => c :: unifyLineEnds rest
  | [] => []

theorem unifyLineEnds_none {text : List Char} (kept : ∀ c ∈ text, c ≠ '\r') :
    unifyLineEnds text = text := by
  induction text with
  | nil => rfl
  | cons c rest ih =>
    obtain ⟨first, later⟩ := List.forall_mem_cons.mp kept
    rw [unifyLineEnds, ih later]
    · exact fun _ same _ => first same
    · exact first

end RailSpec.Text
