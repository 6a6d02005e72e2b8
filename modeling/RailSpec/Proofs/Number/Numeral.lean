import Mathlib.Data.Nat.Digits.Defs
import RailSpec.Number.Literal

/-!
Numerals: digits of a base, perhaps with underscores between them. In a text without a mark for a
base the digits up to nine are read as a decimal number, whatever base they are meant in.
-/

namespace RailSpec.Number

/-- The character of a digit; one above nine is a letter, small or capital. -/
def digitCharacter (value : Nat) (capital : Bool) : Char :=
  if capital then (Nat.digitChar value).toUpper else Nat.digitChar value

/-- A digit of a base up to sixteen. -/
structure Digit (base : Nat) where
  value : Nat
  small : value < base
  capital : Bool := false

def Digit.character {base : Nat} (digit : Digit base) : Char :=
  digitCharacter digit.value digit.capital

/-- One digit or more, each but the first perhaps with an underscore before it. -/
structure Numeral (base : Nat) where
  first : Digit base
  rest : List (Bool × Digit base)

namespace Numeral

variable {base : Nat}

def text (numeral : Numeral base) : List Char :=
  numeral.first.character :: numeral.rest.flatMap fun (gap, digit) =>
    if gap then ['_', digit.character] else [digit.character]

/-- The values of the digits, the most significant first. -/
def values (numeral : Numeral base) : List Nat :=
  numeral.first.value :: numeral.rest.map fun (_, digit) => digit.value

def value (numeral : Numeral base) : Nat :=
  Nat.ofDigits base numeral.values.reverse

/-- The number that the digits would make up in base ten. -/
def decimalReading (numeral : Numeral base) : Nat :=
  Nat.ofDigits 10 numeral.values.reverse

/-- Whether a numeral has no underscore in it. -/
def IsUnbroken (numeral : Numeral base) : Prop :=
  ∀ next ∈ numeral.rest, next.1 = false

end Numeral

/-! Characters. -/

section Characters

variable {base : Nat}

/-- A character that may stand in an integer literal: what is done to a text before it is read leaves
the character alone. -/
structure IsPlainCharacter (c : Char) : Prop where
  ascii : Text.asciiDigit c = c
  solid : isNumberBlank c = false
  noMinus : c ≠ '-'
  noPlus : c ≠ '+'

instance (c : Char) : Decidable (IsPlainCharacter c) :=
  decidable_of_iff (Text.asciiDigit c = c ∧ isNumberBlank c = false ∧ c ≠ '-' ∧ c ≠ '+')
    ⟨fun ⟨ascii, solid, noMinus, noPlus⟩ => ⟨ascii, solid, noMinus, noPlus⟩,
      fun plain => ⟨plain.ascii, plain.solid, plain.noMinus, plain.noPlus⟩⟩

namespace Digit

/-- What holds of the characters of all digits of a base holds of those of a smaller one. -/
theorem forall_character (holds : Nat → Char → Prop) {top : Nat} (fits : base ≤ top)
    (all : ∀ value < top, ∀ capital, holds value (digitCharacter value capital))
    (digit : Digit base) : holds digit.value digit.character :=
  all _ (Nat.lt_of_lt_of_le digit.small fits) _

theorem character_plain (fits : base ≤ 16) (digit : Digit base) :
    IsPlainCharacter digit.character :=
  forall_character (fun _ c => IsPlainCharacter c) fits (by decide) digit

theorem character_ne_underscore (fits : base ≤ 16) (digit : Digit base) : digit.character ≠ '_' :=
  forall_character (fun _ c => c ≠ '_') fits (by decide) digit

theorem baseValue?_character (fits : base ≤ 16) (digit : Digit base) :
    Text.baseValue? digit.character = some digit.value :=
  forall_character (fun value c => Text.baseValue? c = some value) fits (by decide) digit

theorem digitValue?_character (fits : base ≤ 10) (digit : Digit base) :
    Text.digitValue? digit.character = some digit.value :=
  forall_character (fun value c => Text.digitValue? c = some value) fits (by decide) digit

theorem character_eq_zero_iff (fits : base ≤ 16) (digit : Digit base) :
    digit.character = '0' ↔ digit.value = 0 :=
  forall_character (fun value c => c = '0' ↔ value = 0) fits (by decide) digit

end Digit

end Characters

/-! Digits. -/

section Digits

variable {base : Nat}

theorem ofDigits_eq (base : Nat) (digits : List Nat) :
    ofDigits base digits = Nat.ofDigits base digits.reverse := by
  rw [Nat.ofDigits_eq_foldr, List.foldr_reverse, ofDigits]
  simp [Nat.add_comm, Nat.mul_comm]

namespace Numeral

theorem text_single (first : Digit base) : text ⟨first, []⟩ = [first.character] :=
  rfl

theorem text_cons (first next : Digit base) (gap : Bool) (rest : List (Bool × Digit base)) :
    text ⟨first, (gap, next) :: rest⟩ =
      first.character :: ((if gap then ['_'] else []) ++ text ⟨next, rest⟩) := by
  cases gap <;> rfl

/-- The digits of a numeral are read in any base that has them. -/
theorem groupedDigits?_text {top : Nat} (fits : base ≤ top) (most : top ≤ 16)
    (first : Digit base) (rest : List (Bool × Digit base)) :
    groupedDigits? top (text ⟨first, rest⟩) = some (values ⟨first, rest⟩) := by
  have within (digit : Digit base) : digit.value < top := Nat.lt_of_lt_of_le digit.small fits
  have read (digit : Digit base) : Text.baseValue? digit.character = some digit.value :=
    digit.baseValue?_character (fits.trans most)
  induction rest generalizing first with
  | nil =>
    rw [text_single, groupedDigits?, read]
    exact if_pos (within first)
  | cons next rest ih =>
    obtain ⟨gap, next⟩ := next
    rw [text_cons]
    cases gap with
    | true =>
      change groupedDigits? top (first.character :: '_' :: text ⟨next, rest⟩) = _
      rw [groupedDigits?, read, ih]
      exact if_pos (within first)
    | false =>
      have front : text ⟨next, rest⟩ = next.character :: (text ⟨next, rest⟩).tail := rfl
      have later := ih next
      rw [front] at later ⊢
      change groupedDigits? top (first.character :: next.character :: _) = _
      rw [groupedDigits?, read, later]
      · exact if_pos (within first)
      · exact next.character_ne_underscore (fits.trans most)

theorem mem_text {numeral : Numeral base} {c : Char} (member : c ∈ numeral.text) :
    (∃ digit : Digit base, c = digit.character) ∨ c = '_' ∧ ¬ numeral.IsUnbroken := by
  rcases List.mem_cons.mp member with rfl | later
  · exact .inl ⟨_, rfl⟩
  · obtain ⟨⟨gap, digit⟩, held, inside⟩ := List.mem_flatMap.mp later
    cases gap with
    | false => exact .inl ⟨digit, List.mem_singleton.mp inside⟩
    | true =>
      rcases List.mem_cons.mp inside with rfl | digits
      · exact .inr ⟨rfl, fun unbroken => Bool.noConfusion (unbroken _ held)⟩
      · exact .inl ⟨digit, List.mem_singleton.mp digits⟩

theorem text_plain (fits : base ≤ 16) (numeral : Numeral base) :
    ∀ c ∈ numeral.text, IsPlainCharacter c := by
  intro c member
  rcases mem_text member with ⟨digit, rfl⟩ | ⟨rfl, _⟩
  · exact digit.character_plain fits
  · decide

theorem underscore_mem_text {numeral : Numeral base} (broken : ¬ numeral.IsUnbroken) :
    '_' ∈ numeral.text := by
  obtain ⟨⟨gap, digit⟩, found⟩ := not_forall.mp broken
  obtain ⟨held, spaced⟩ := Classical.not_imp.mp found
  have gapped : gap = true := eq_true_of_ne_false spaced
  subst gapped
  exact List.mem_cons_of_mem _ (List.mem_flatMap.mpr ⟨(true, digit), held, List.mem_cons_self ..⟩)

/-- Digits without an underscore are digits and nothing else. -/
theorem plainDigits?_text (fits : base ≤ 10) (first : Digit base) (rest : List (Bool × Digit base))
    (unbroken : IsUnbroken ⟨first, rest⟩) :
    plainDigits? (text ⟨first, rest⟩) = some (values ⟨first, rest⟩) := by
  have each : (text ⟨first, rest⟩).mapM Text.digitValue? = some (values ⟨first, rest⟩) := by
    induction rest generalizing first with
    | nil => simp [text_single, values, Digit.digitValue?_character fits]
    | cons next rest ih =>
      obtain ⟨here, later⟩ := List.forall_mem_cons.mp unbroken
      obtain ⟨gap, next⟩ := next
      have unspaced : gap = false := here
      subst unspaced
      rw [text_cons]
      change (first.character :: text ⟨next, rest⟩).mapM Text.digitValue? = _
      rw [List.mapM_cons, first.digitValue?_character fits, ih next later]
      rfl
  exact each

end Numeral

/-- A character that is no digit of any script keeps a text from being nothing but digits. -/
theorem plainDigits?_none {text : List Char} {c : Char} (member : c ∈ text)
    (other : Text.digitValue? c = none) : plainDigits? text = none := by
  have each : text.mapM Text.digitValue? = none := by
    induction text with
    | nil => cases member
    | cons first rest ih =>
      rw [List.mapM_cons]
      rcases List.mem_cons.mp member with rfl | later
      · rw [other]
        rfl
      · rw [ih later]
        cases Text.digitValue? first <;> rfl
  cases text with
  | nil => rfl
  | cons first rest => exact each

theorem takeSign_plain {c : Char} (plain : IsPlainCharacter c) (rest : List Char) :
    takeSign (c :: rest) = (false, c :: rest) := by
  unfold takeSign
  split
  · rename_i same
    exact absurd (List.cons.inj same).1 plain.noMinus
  · rename_i same
    exact absurd (List.cons.inj same).1 plain.noPlus
  · rfl

/-- A literal with a character that is no digit is read by its grammar, with nothing taken off. -/
theorem readInteger_marked {text : List Char} (plain : ∀ c ∈ text, IsPlainCharacter c) {c : Char}
    (member : c ∈ text) (other : Text.digitValue? c = none) :
    readInteger (String.ofList text) = (markedNumber? text).map Int.ofNat := by
  have ascii : text.map Text.asciiDigit = text :=
    (List.map_congr_left fun c member => (plain c member).ascii).trans (List.map_id text)
  have trimmed : Text.trimBy isNumberBlank text = text :=
    Text.trimBy_none fun c member => (plain c member).solid
  rw [readInteger, String.toList_ofList, plainDigits?_none member other]
  dsimp only
  rw [ascii, trimmed]
  cases text with
  | nil => cases member
  | cons first rest =>
    rw [takeSign_plain (plain _ (List.mem_cons_self ..))]
    rfl

/-- The letters that mark a base. -/
def marks : List Char :=
  ['x', 'X', 'o', 'O', 'b', 'B']

/-- Without a mark for a base a text is a decimal number. -/
theorem markedNumber?_unmarked {text : List Char} (unmarked : ∀ c ∈ text, c ∉ marks) :
    markedNumber? text = match (groupedDigits? 10 text).bind decimalValue? with
      | some value => if text.head? = some '0' && value ≠ 0 then none else some value
      | none => none := by
  have second {letter : Char} {rest : List Char} (member : letter ∈ marks) :
      text ≠ '0' :: letter :: rest := by
    rintro rfl
    exact unmarked letter (List.mem_cons_of_mem _ (List.mem_cons_self ..)) member
  unfold markedNumber?
  split
  · exact absurd rfl (second (by decide))
  · exact absurd rfl (second (by decide))
  · exact absurd rfl (second (by decide))
  · exact absurd rfl (second (by decide))
  · exact absurd rfl (second (by decide))
  · exact absurd rfl (second (by decide))
  · rfl

namespace Numeral

theorem text_unmarked (fits : base ≤ 10) (numeral : Numeral base) :
    ∀ c ∈ numeral.text, c ∉ marks := by
  intro c member
  rcases mem_text member with ⟨digit, rfl⟩ | ⟨rfl, _⟩
  · exact digit.forall_character (fun _ c => c ∉ marks) fits (by decide)
  · decide

/-- Digits up to nine are read as a decimal number, if there are not too many of them; with an
underscore among them only if the first one is not zero or all are. -/
theorem readInteger_text_iff (fits : base ≤ 10) (numeral : Numeral base) {number : Int} :
    readInteger (String.ofList numeral.text) = some number ↔
      numeral.values.length ≤ digitLimit ∧ (numeral.decimalReading : Int) = number ∧
        (numeral.IsUnbroken ∨ numeral.first.value ≠ 0 ∨ numeral.decimalReading = 0) := by
  obtain ⟨first, rest⟩ := numeral
  have reading : ofDigits 10 (values ⟨first, rest⟩) = decimalReading ⟨first, rest⟩ := ofDigits_eq ..
  have most : base ≤ 16 := fits.trans (by decide)
  by_cases unbroken : IsUnbroken ⟨first, rest⟩
  · rw [readInteger, String.toList_ofList, plainDigits?_text fits first rest unbroken]
    dsimp only
    rw [decimalValue?, reading]
    by_cases short : (values ⟨first, rest⟩).length ≤ digitLimit
    · simp [short, unbroken]
    · simp [short]
  · have head : (text ⟨first, rest⟩).head? = some first.character := rfl
    rw [readInteger_marked (text_plain most _) (underscore_mem_text unbroken) (by decide),
      markedNumber?_unmarked (text_unmarked fits _), groupedDigits?_text fits (by decide), Option.bind_some,
      decimalValue?, reading, head]
    by_cases short : (values ⟨first, rest⟩).length ≤ digitLimit
    · by_cases zero : first.value = 0
      · by_cases nothing : decimalReading ⟨first, rest⟩ = 0
        · simp [short, unbroken, nothing]
        · simp [short, unbroken, zero, nothing, (first.character_eq_zero_iff most).mpr zero]
      · simp [short, unbroken, zero, first.character_eq_zero_iff most]
    · simp [short]

/-- A number that does not begin with a zero has no more decimal digits than the bound on it. -/
theorem length_values_le {numeral : Numeral 10} {limit : Nat} (filled : numeral.first.value ≠ 0)
    (bounded : numeral.value < 10 ^ limit) : numeral.values.length ≤ limit := by
  obtain ⟨first, rest⟩ := numeral
  have least : 10 ^ rest.length ≤ value ⟨first, rest⟩ := by
    rw [value, values, List.reverse_cons, Nat.ofDigits_append, Nat.ofDigits_singleton,
      List.length_reverse, List.length_map]
    exact (Nat.le_mul_of_pos_right _ (Nat.pos_of_ne_zero filled)).trans (Nat.le_add_left _ _)
  have fewer : rest.length < limit :=
    (Nat.pow_lt_pow_iff_right (by decide)).mp (Nat.lt_of_le_of_lt least bounded)
  rwa [values, List.length_cons, List.length_map]

theorem ofDigits_eq_zero {small large : Nat} (positive : 0 < small) {digits : List Nat}
    (zero : Nat.ofDigits small digits = 0) : Nat.ofDigits large digits = 0 := by
  have digit : ∀ digit ∈ digits, digit = 0 := Nat.digits_zero_of_eq_zero positive.ne' zero
  rw [List.eq_replicate_of_mem digit, Nat.ofDigits_replicate_zero]

/-- Digits below eight make up the same number in base ten just if it is below eight. -/
theorem decimalReading_eq_iff (numeral : Numeral 8) :
    numeral.decimalReading = numeral.value ↔ numeral.value < 8 := by
  obtain ⟨last, front, digits⟩ : ∃ last front, numeral.values.reverse = last :: front :=
    List.exists_cons_of_ne_nil (List.reverse_ne_nil_iff.mpr (List.cons_ne_nil _ _))
  have small : last < 8 := by
    have among : last ∈ numeral.values := List.mem_reverse.mp (digits ▸ List.mem_cons_self ..)
    rcases List.mem_cons.mp among with rfl | later
    · exact numeral.first.small
    · obtain ⟨next, _, rfl⟩ := List.mem_map.mp later
      exact next.2.small
  have more : Nat.ofDigits 8 front ≤ Nat.ofDigits 10 front := Nat.ofDigits_monotone _ (by decide)
  rw [decimalReading, value, digits, Nat.ofDigits_cons, Nat.ofDigits_cons]
  constructor
  · intro same
    omega
  · intro single
    have none : Nat.ofDigits 8 front = 0 := by omega
    rw [none, ofDigits_eq_zero (by decide) none]

/-- Digits after a mark for a base other than ten are read in that base, underscores or not. -/
theorem markedDigits?_text (fits : base ≤ 16) (numeral : Numeral base) :
    markedDigits? base numeral.text = some numeral.value := by
  obtain ⟨first, rest⟩ := numeral
  have plain : markedDigits? base (text ⟨first, rest⟩) =
      (groupedDigits? base (text ⟨first, rest⟩)).map (ofDigits base) := by
    unfold markedDigits?
    split
    · rename_i same
      exact absurd (List.cons.inj same).1 (first.character_ne_underscore fits)
    · rfl
  rw [plain, groupedDigits?_text (Nat.le_refl base) fits, Option.map_some, ofDigits_eq]
  rfl

end Numeral

/-- A character that is a digit of larger bases only begins no digits of this one. -/
theorem groupedDigits?_letter {c : Char} {value : Nat} (known : Text.baseValue? c = some value)
    (high : ¬ value < base) (rest : List Char) : groupedDigits? base (c :: rest) = none := by
  rw [groupedDigits?.eq_def]
  split
  · rfl
  · rename_i same
    obtain ⟨rfl, _⟩ := List.cons.inj same
    rw [known]
    exact if_neg high
  · rename_i rest same
    obtain ⟨rfl, _⟩ := List.cons.inj same
    rw [known]
    cases groupedDigits? base rest with
    | none => rfl
    | some digits => exact if_neg high
  · rename_i next rest _ same
    obtain ⟨rfl, _⟩ := List.cons.inj same
    rw [known]
    cases groupedDigits? base (next :: rest) with
    | none => rfl
    | some digits => exact if_neg high

end Digits

end RailSpec.Number
