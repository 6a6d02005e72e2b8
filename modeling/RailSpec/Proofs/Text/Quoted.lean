import RailSpec.Text.Quoted

/-!
Quoted texts read back. A quote ends the text just if no backslash escapes it, and behind every text
that is written between quotes stands such a quote.
-/

namespace RailSpec.Text

/-- The text up to the first quote that is not escaped, and what stands behind that quote. A
backslash stands for the character behind it. -/
def upToQuote : List Char → Option (List Char × List Char)
  | [] => none
  | '"' :: rest => some ([], rest)
  | '\\' :: c :: rest => (upToQuote rest).map fun (text, after) => (c :: text, after)
  | c :: rest => (upToQuote rest).map fun (text, after) => (c :: text, after)

/-- A text between quotes, and what stands behind it. -/
def readQuoted : List Char → Option (String × List Char)
  | '"' :: rest => (upToQuote rest).map fun (text, after) => (String.ofList text, after)
  | _ => none

theorem upToQuote_escaped (text after : List Char) :
    upToQuote (escaped text ++ '"' :: after) = some (text, after) := by
  induction text with
  | nil => rfl
  | cons c rest ih =>
    by_cases special : c = '"' ∨ c = '\\'
    · rw [escaped, if_pos (by simpa using special)]
      rw [List.cons_append, List.cons_append, upToQuote, ih]
      rfl
    · obtain ⟨noQuote, noBackslash⟩ := not_or.mp special
      rw [escaped, if_neg (by simpa using special), List.cons_append, upToQuote, ih]
      · rfl
      · exact noQuote
      · intro _ _ same
        exact absurd same noBackslash

/-- Whatever is quoted reads back, and whatever stands behind it is left. -/
theorem readQuoted_doubleQuoted (text : String) (after : List Char) :
    readQuoted ((doubleQuoted text).toList ++ after) = some (text, after) := by
  have whole : (doubleQuoted text).toList ++ after = '"' :: (escaped text.toList ++ '"' :: after) := by
    simp [doubleQuoted]
  rw [whole, readQuoted, upToQuote_escaped]
  simp

end RailSpec.Text
