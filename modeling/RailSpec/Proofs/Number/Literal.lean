import RailSpec.Proofs.Number.Numeral

/-!
Integer literals by their grammar. A literal of digits after a mark for the bases two, eight and
sixteen is read as the number that it denotes, and so is a decimal one; of those that denote the
digits in base eight after a bare zero only a few are, and none with the mark for base ten.
-/

namespace RailSpec.Number

inductive Mark where
  | binary
  | octal
  | decimal
  | hexadecimal
  deriving DecidableEq

def Mark.base : Mark → Nat
  | .binary => 2
  | .octal => 8
  | .decimal => 10
  | .hexadecimal => 16

def Mark.letter (capital : Bool) : Mark → Char
  | .binary => if capital then 'B' else 'b'
  | .octal => if capital then 'O' else 'o'
  | .decimal => if capital then 'D' else 'd'
  | .hexadecimal => if capital then 'X' else 'x'

/-- An integer literal: decimal digits that do not begin with a zero, unless it is the only one;
digits after a zero and a mark for their base; or digits in base eight of which the first is a zero.
-/
inductive IntegerLiteral where
  | decimal (numeral : Numeral 10) (proper : numeral.first.value = 0 → numeral.rest = [])
  | marked (mark : Mark) (capital : Bool) (numeral : Numeral mark.base)
  | octal (numeral : Numeral 8) (leading : numeral.first.value = 0) (longer : numeral.rest ≠ [])

namespace IntegerLiteral

def text : IntegerLiteral → List Char
  | .decimal numeral _ => numeral.text
  | .marked mark capital numeral => '0' :: mark.letter capital :: numeral.text
  | .octal numeral _ _ => numeral.text

/-- The number that a literal denotes. -/
def value : IntegerLiteral → Nat
  | .decimal numeral _ => numeral.value
  | .marked _ _ numeral => numeral.value
  | .octal numeral _ _ => numeral.value

/-- The literals that are read as what they denote. Digits after a bare zero are read in base ten,
which makes no difference to a number below eight, and with an underscore only if they are all zero.
-/
def IsReadable : IntegerLiteral → Prop
  | .decimal _ _ => True
  | .marked mark _ _ => mark ≠ .decimal
  | .octal numeral _ _ => numeral.values.length ≤ digitLimit ∧
      (numeral.value = 0 ∨ numeral.value < 8 ∧ numeral.IsUnbroken)

end IntegerLiteral

/-! Marks. -/

theorem Mark.letter_plain (mark : Mark) (capital : Bool) : IsPlainCharacter (mark.letter capital) := by
  cases mark <;> cases capital <;> decide

theorem Mark.digitValue?_letter (mark : Mark) (capital : Bool) :
    Text.digitValue? (mark.letter capital) = none := by
  cases mark <;> cases capital <;> decide

/-- Digits after a mark are read in its base, but not those after the mark for base ten. -/
theorem markedNumber?_text (mark : Mark) (capital : Bool) (numeral : Numeral mark.base) :
    markedNumber? ('0' :: mark.letter capital :: numeral.text) =
      if mark = .decimal then none else some numeral.value := by
  cases mark with
  | binary => cases capital <;> exact numeral.markedDigits?_text (by decide)
  | octal => cases capital <;> exact numeral.markedDigits?_text (by decide)
  | hexadecimal => cases capital <;> exact numeral.markedDigits?_text (by decide)
  | decimal =>
    have letter : Text.baseValue? (Mark.decimal.letter capital) = some 13 := by
      cases capital <;> decide
    have solid : Mark.decimal.letter capital ≠ '_' := by cases capital <;> decide
    have unmarked : ∀ c ∈ '0' :: Mark.decimal.letter capital :: numeral.text, c ∉ marks :=
      List.forall_mem_cons.mpr ⟨by decide, List.forall_mem_cons.mpr
        ⟨by cases capital <;> decide, numeral.text_unmarked (Nat.le_refl 10)⟩⟩
    have unread : groupedDigits? 10 ('0' :: Mark.decimal.letter capital :: numeral.text) = none := by
      rw [groupedDigits?, groupedDigits?_letter letter (by decide)]
      · rfl
      · exact solid
    rw [markedNumber?_unmarked unmarked, unread]
    rfl

namespace IntegerLiteral

theorem text_plain (literal : IntegerLiteral) : ∀ c ∈ literal.text, IsPlainCharacter c := by
  cases literal with
  | decimal numeral _ => exact numeral.text_plain (by decide)
  | marked mark capital numeral =>
    have most : mark.base ≤ 16 := by cases mark <;> decide
    exact List.forall_mem_cons.mpr ⟨by decide, List.forall_mem_cons.mpr
      ⟨mark.letter_plain capital, numeral.text_plain most⟩⟩
  | octal numeral _ _ => exact numeral.text_plain (by decide)

/-- A literal for a number with no more decimal digits than may be read is read as what it denotes
just if it is a readable one. -/
theorem readInteger_iff (literal : IntegerLiteral) (bounded : literal.value < 10 ^ digitLimit) :
    readInteger (String.ofList literal.text) = some (literal.value : Int) ↔ literal.IsReadable := by
  cases literal with
  | decimal numeral proper =>
    refine iff_of_true ((numeral.readInteger_text_iff (Nat.le_refl 10)).mpr ⟨?_, rfl, ?_⟩) trivial
    · by_cases filled : numeral.first.value = 0
      · rw [Numeral.values, proper filled]
        exact (by decide : 1 ≤ digitLimit)
      · exact Numeral.length_values_le filled bounded
    · by_cases filled : numeral.first.value = 0
      · left
        rw [Numeral.IsUnbroken, proper filled]
        exact List.forall_mem_nil _
      · exact .inr (.inl filled)
  | marked mark capital numeral =>
    have letter : mark.letter capital ∈ text (.marked mark capital numeral) :=
      List.mem_cons_of_mem _ (List.mem_cons_self ..)
    rw [readInteger_marked (text_plain _) letter (mark.digitValue?_letter capital), text,
      markedNumber?_text, IsReadable]
    by_cases ten : mark = .decimal
    · simp [ten]
    · simp [ten, value]
  | octal numeral leading longer =>
    have zero : numeral.decimalReading = 0 ↔ numeral.value = 0 :=
      ⟨Numeral.ofDigits_eq_zero (by decide), Numeral.ofDigits_eq_zero (by decide)⟩
    have same : (numeral.decimalReading : Int) = numeral.value ↔ numeral.value < 8 :=
      Int.ofNat_inj.trans numeral.decimalReading_eq_iff
    rw [text, value, numeral.readInteger_text_iff (by decide), same, zero, IsReadable]
    refine and_congr_right fun _ => ?_
    constructor
    · rintro ⟨single, unbroken | filled | nothing⟩
      · exact .inr ⟨single, unbroken⟩
      · exact absurd leading filled
      · exact .inl nothing
    · rintro (nothing | ⟨single, unbroken⟩)
      · exact ⟨by omega, .inr (.inr nothing)⟩
      · exact ⟨single, .inl unbroken⟩

end IntegerLiteral

end RailSpec.Number
