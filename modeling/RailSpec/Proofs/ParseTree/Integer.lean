import RailSpec.ParseTree.Node
import RailSpec.Proofs.Number.Literal

/-!
Integers of parsed trees. The node of an integer literal has the number that the literal denotes as
its value just if the literal is a readable one, and then a sign with that node behind it has this
number or its negation.
-/

namespace RailSpec.ParseTree

open Number (IntegerLiteral signed digitLimit readInteger)

/-- A sign with an integer literal behind it; there may be blanks around the sign. -/
structure IsSigned (located : Located) (label : Label) (children : List Label) (negative : Bool)
    (text : List Char) : Prop where
  kind : label.kind = "unary"
  sign : ∃ operator, childIn "operator" children = some operator ∧
    Text.trimBy Text.isBlank (located.text operator) = [if negative then '-' else '+']
  number : ∃ operand, childIn "operand" children = some operand ∧ operand.kind = "integer" ∧
    located.text operand = text

variable {located : Located} {label : Label} {children : List Label} {negative : Bool}
  {text : List Char}

theorem signedValue_int (negative : Bool) (number : Int) :
    signedValue [if negative then '-' else '+'] (.int number) =
      some (.int (if negative then -number else number)) := by
  cases negative <;> rfl

/-- A sign has the number behind it as its value, or the negation of that number. -/
theorem IsSigned.ownValue_eq (signed : IsSigned located label children negative text) :
    ownValue located label children = (readInteger (String.ofList text)).map fun number =>
      .int (if negative then -number else number) := by
  obtain ⟨operator, first, sign⟩ := signed.sign
  obtain ⟨operand, second, kind, rfl⟩ := signed.number
  rw [ownValue, if_pos signed.kind, unaryValue, first, second]
  dsimp only
  rw [kind, sign]
  change (Option.map Value.int _).bind _ = _
  cases readInteger (String.ofList (located.text operand)) with
  | none => rfl
  | some number => exact signedValue_int negative number

theorem signed_eq_iff {number : Int} {magnitude : Nat} :
    (if negative then -number else number) = signed negative magnitude ↔
      number = magnitude := by
  cases negative with
  | false => exact Iff.rfl
  | true => exact Int.neg_inj

/-- A value made of what is read is the one expected just if what is read is. -/
theorem map_int_eq_some_iff {read : Option Int} (change : Int → Int) {number expected : Int}
    (changed : ∀ {found}, change found = expected ↔ found = number) :
    (read.map fun found => Value.int (change found)) = some (.int expected) ↔
      read = some number := by
  cases read with
  | none => simp
  | some found => simp [changed]

/-- An integer literal has the number that it denotes as its value just if it is a readable one, and
so has a sign with the literal behind it. -/
theorem integers_denoted (literal : IntegerLiteral) (bounded : literal.value < 10 ^ digitLimit) :
    (leafValue "integer" literal.text = some (.int literal.value) ↔ literal.IsReadable) ∧
    ∀ (located : Located) (label : Label) (children : List Label) (negative : Bool),
      IsSigned located label children negative literal.text →
        (ownValue located label children = some (.int (signed negative literal.value)) ↔
          literal.IsReadable) := by
  have read := literal.readInteger_iff bounded
  refine ⟨?_, fun located label children negative sign => ?_⟩
  · exact (map_int_eq_some_iff id Iff.rfl).trans read
  · rw [sign.ownValue_eq]
    exact (map_int_eq_some_iff _ signed_eq_iff).trans read

/-- Eight with a bare zero before its digits in base eight gets ten as its value. -/
theorem leafValue_ten :
    let literal := IntegerLiteral.octal ⟨⟨0, by decide, false⟩,
      [(false, ⟨1, by decide, false⟩), (false, ⟨0, by decide, false⟩)]⟩ rfl (List.cons_ne_nil _ _)
    literal.text = "010".toList ∧ literal.value = 8 ∧ literal.value < 10 ^ digitLimit ∧
      leafValue "integer" literal.text = some (.int 10) := by
  refine ⟨by decide, by decide, ?_, by rfl⟩
  exact Nat.lt_of_lt_of_le (by decide : 8 < 10 ^ 1) (Nat.pow_le_pow_right (by decide) (by decide))

/-- The negation of a number in base sixteen, with a small and a capital digit and an underscore
between them. -/
theorem integers_denoted_hexadecimal :
    let literal := IntegerLiteral.marked .hexadecimal false
      ⟨⟨15, by decide, true⟩, [(true, ⟨15, by decide, false⟩)]⟩
    let sign : Label := { kind := "-", start := 0, stop := 1, field := some "operator" }
    let number : Label := { kind := "integer", start := 1, stop := 6, field := some "operand" }
    literal.value < 10 ^ digitLimit ∧ literal.text = "0xF_f".toList ∧ literal.IsReadable ∧
    IsSigned (Located.ofString "-0xF_f") { kind := "unary", start := 0, stop := 6 } [sign, number]
      true literal.text ∧
    leafValue "integer" literal.text = some (.int 255) ∧
    ownValue (Located.ofString "-0xF_f") { kind := "unary", start := 0, stop := 6 } [sign, number] =
      some (.int (-255)) := by
  intro literal sign number
  have bounded : literal.value < 10 ^ digitLimit :=
    Nat.lt_of_lt_of_le (by decide : 255 < 10 ^ 3) (Nat.pow_le_pow_right (by decide) (by decide))
  have readable : literal.IsReadable := nofun
  have signed : IsSigned (Located.ofString "-0xF_f") { kind := "unary", start := 0, stop := 6 }
      [sign, number] true literal.text :=
    ⟨rfl, ⟨sign, rfl, by decide⟩, ⟨number, rfl, rfl, by decide⟩⟩
  obtain ⟨leaf, own⟩ := integers_denoted literal bounded
  exact ⟨bounded, by decide, readable, signed, leaf.mpr readable, (own _ _ _ _ signed).mpr readable⟩

end RailSpec.ParseTree
