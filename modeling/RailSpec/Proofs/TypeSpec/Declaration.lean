import Mathlib.Data.List.Basic
import RailSpec.TypeSpec.Document

/-!
Declarations read back. A reader goes over the text of a declaration once: its keyword, its name,
then its lines up to the closing brace that ends the text. If each line can be told from what stands
behind it, whatever that is, then so can all lines of a declaration.
-/

namespace RailSpec

namespace Text

/-- What stands behind a mark at the front of a text. -/
def behind (mark : String) (text : List Char) : Option (List Char) :=
  text.dropPrefix? mark.toList

theorem behind_append (mark : String) (rest : List Char) :
    behind mark (mark.toList ++ rest) = some rest :=
  List.dropPrefix?_eq_some_iff.mpr ⟨mark.toList, rfl, beq_self_eq_true _⟩

theorem behind_none {mark : String} {text : List Char} (first other : Char)
    (opens : mark.toList.head? = some first) (starts : text.head? = some other)
    (different : other ≠ first) : behind mark text = none := by
  obtain ⟨marked, mark⟩ := List.head?_eq_some_iff.mp opens
  obtain ⟨tail, rfl⟩ := List.head?_eq_some_iff.mp starts
  rw [behind, mark, List.dropPrefix?, if_neg (by simpa using different)]

/-- The characters at the front of a text that pass a test, and what stands behind them. -/
def front (passes : Char → Bool) (text : List Char) : String × List Char :=
  (String.ofList (text.takeWhile passes), text.dropWhile passes)

theorem front_append {passes : Char → Bool} {word : String} {after : List Char}
    (inside : ∀ c ∈ word.toList, passes c = true)
    (outside : ∀ c, after.head? = some c → passes c = false) :
    front passes (word.toList ++ after) = (word, after) := by
  rw [front, List.takeWhile_append_of_pos inside, List.dropWhile_append_of_pos inside]
  cases after with
  | nil => simp
  | cons stop rest => simp [outside stop rfl]

theorem unlines_concat (lines : List String) (last : String) :
    (unlines (lines ++ [last])).toList =
      lines.flatMap (fun line => line.toList ++ ['\n']) ++ last.toList := by
  induction lines with
  | nil => rfl
  | cons line rest ih =>
    have longer : unlines (line :: (rest ++ [last])) = line ++ "\n" ++ unlines (rest ++ [last]) := by
      cases rest <;> rfl
    rw [List.cons_append, longer, String.toList_append, String.toList_append, ih, List.flatMap_cons]
    simp

end Text

namespace TypeSpec

/-- A line of a declaration as it stands in the text. -/
def indentedLine (line : String) : List Char :=
  "  ".toList ++ (line.toList ++ ['\n'])

/-- The text of a declaration none of whose lines is blank. -/
theorem declaration_toList (keyword name : String) {members : List String}
    (filled : ∀ line ∈ members, Text.isBlankText line = false) :
    (declaration keyword name members).toList =
      (keyword ++ " ").toList ++ (name.toList ++ (" \x7b\n".toList ++
        (members.flatMap indentedLine ++ ['\x7d']))) := by
  have indented : Text.indentLines members 1 2 = members.map ("  " ++ ·) := by
    refine List.map_congr_left fun line member => ?_
    rw [Text.indentLine, filled line member]
    rfl
  have lines : (fun line => ("  " ++ line).toList ++ ['\n']) = indentedLine := by
    funext line
    rw [indentedLine, String.toList_append, List.append_assoc]
  rw [declaration, indented, Text.unlines_concat, List.flatMap_cons, List.flatMap_map, lines]
  simp

section Reading

variable {α : Type} (read : List Char → Option (α × List Char))

/-- Reads lines up to the brace that ends the text. -/
def readLines (text : List Char) : Option (List α) :=
  if text = ['\x7d'] then some []
  else
    match read text with
    | none => none
    | some (line, rest) =>
      if rest.length < text.length then (readLines rest).map (line :: ·) else none
termination_by text.length

/-- Reads a declaration as its name and its lines. -/
def readDeclaration (keyword : String) (text : String) : Option (String × List α) := do
  let opened ← Text.behind (keyword ++ " ") text.toList
  let (name, rest) := Text.front (· ≠ ' ') opened
  let body ← Text.behind " \x7b\n" rest
  let lines ← readLines read body
  return (name, lines)

variable {read} {lines : List α} {write : α → List Char}

theorem readLines_written
    (reads : ∀ line ∈ lines, ∀ rest, read (write line ++ rest) = some (line, rest))
    (starts : ∀ line, (write line).head? = some ' ') :
    readLines read (lines.flatMap write ++ ['\x7d']) = some lines := by
  induction lines with
  | nil => rw [List.flatMap_nil, List.nil_append, readLines, if_pos rfl]
  | cons line rest ih =>
    obtain ⟨here, later⟩ := List.forall_mem_cons.mp reads
    obtain ⟨tail, written⟩ := List.head?_eq_some_iff.mp (starts line)
    have shorter : (rest.flatMap write ++ ['\x7d']).length <
        (write line ++ (rest.flatMap write ++ ['\x7d'])).length := by
      simp only [written, List.cons_append, List.length_cons, List.length_append]
      omega
    -- A line opens with a blank, so what it holds cannot pass for the closing brace.
    have more : write line ++ (rest.flatMap write ++ ['\x7d']) ≠ ['\x7d'] := by
      rw [written]
      simp
    rw [List.flatMap_cons, List.append_assoc, readLines, if_neg more, here]
    dsimp only
    rw [if_pos shorter, ih later]
    rfl

/-- A declaration whose lines can be read one by one is read as its name and its lines. -/
theorem readDeclaration_declaration {keyword name : String} {text : α → String}
    (plain : ∀ c ∈ name.toList, c ≠ ' ')
    (filled : ∀ line, Text.isBlankText (text line) = false)
    (reads : ∀ line ∈ lines, ∀ rest,
      read (indentedLine (text line) ++ rest) = some (line, rest)) :
    readDeclaration read keyword (declaration keyword name (lines.map text)) =
      some (name, lines) := by
  have nonblank : ∀ member ∈ lines.map text, Text.isBlankText member = false := by
    intro member within
    obtain ⟨line, -, rfl⟩ := List.mem_map.mp within
    exact filled line
  have all : readLines read ((lines.map text).flatMap indentedLine ++ ['\x7d']) = some lines := by
    rw [List.flatMap_map]
    exact readLines_written reads fun line => rfl
  have inside : ∀ c ∈ name.toList, decide (c ≠ ' ') = true :=
    fun c member => decide_eq_true (plain c member)
  simp only [readDeclaration, declaration_toList keyword name nonblank, Text.behind_append,
    Option.bind_eq_bind, Option.bind_some]
  rw [Text.front_append inside (by simp)]
  dsimp only
  rw [Text.behind_append, Option.bind_some, all, Option.bind_some]
  rfl

end Reading

end TypeSpec

end RailSpec
