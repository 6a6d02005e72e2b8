/-!
Blank characters: the white space of Unicode together with the four information separators
U+001C to U+001F.
-/

namespace RailSpec.Text

/-- Code points of the blank characters above the ASCII range. -/
def wideBlanks : List Nat :=
  [0x85, 0xA0, 0x1680, 0x2000, 0x2001, 0x2002, 0x2003, 0x2004, 0x2005, 0x2006, 0x2007, 0x2008,
    0x2009, 0x200A, 0x2028, 0x2029, 0x202F, 0x205F, 0x3000]

def isBlank (c : Char) : Bool :=
  (9 ≤ c.toNat && c.toNat ≤ 13) || (28 ≤ c.toNat && c.toNat ≤ 32) || wideBlanks.contains c.toNat

/-- Drops what satisfies a test from both ends of a text. -/
def trimBy (drops : Char → Bool) (text : List Char) : List Char :=
  ((text.dropWhile drops).reverse.dropWhile drops).reverse

/-- Drops the blanks at both ends. -/
def strip (text : String) : String :=
  String.ofList (trimBy isBlank text.toList)

/-- A text with nothing but blanks in it. -/
def isBlankText (text : String) : Bool :=
  text.toList.all isBlank

theorem isBlank_of_isWhitespace {c : Char} (white : c.isWhitespace = true) : isBlank c = true := by
  simp only [Char.isWhitespace, Bool.or_eq_true, decide_eq_true_eq] at white
  rcases white with ((same | same) | same) | same <;> subst same <;> decide

theorem isBlank_digit {c : Char} (digit : c.isDigit = true) : isBlank c = false := by
  have range : 48 ≤ c.toNat ∧ c.toNat ≤ 57 := by
    simpa [Char.isDigit, UInt32.le_iff_toNat_le] using digit
  have narrow : wideBlanks.contains c.toNat = false := by
    simp [wideBlanks]
    omega
  rw [isBlank, narrow]
  simp
  omega

theorem trimBy_none {drops : Char → Bool} {text : List Char} (kept : ∀ c ∈ text, drops c = false) :
    trimBy drops text = text := by
  have front (text : List Char) (kept : ∀ c ∈ text, drops c = false) :
      text.dropWhile drops = text := by
    cases text with
    | nil => rfl
    | cons c rest => rw [List.dropWhile_cons_of_neg (by simp [kept])]
  have back : ∀ c ∈ text.reverse, drops c = false := fun c member =>
    kept c (List.mem_reverse.mp member)
  rw [trimBy, front text kept, front text.reverse back, List.reverse_reverse]

end RailSpec.Text
