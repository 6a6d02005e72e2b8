import Mathlib.Tactic.Tauto
import RailSpec.Value.Written

/-!
Integers on their way in and out. A literal in a marked base is read however many digits it has, but
an integer is written only if it has few enough, so that there are literals which can be read and
not written.
-/

namespace RailSpec.Number

theorem groupedDigits?_zeros (count : Nat) :
    groupedDigits? 16 ('1' :: List.replicate count '0') = some (1 :: List.replicate count 0) := by
  have zeros (count : Nat) : groupedDigits? 16 ('0' :: List.replicate count '0') =
      some (0 :: List.replicate count 0) := by
    induction count with
    | zero => rfl
    | succ count ih =>
      rw [List.replicate_succ, List.replicate_succ, groupedDigits?, ih]
      · rfl
      · simp
  cases count with
  | zero => rfl
  | succ count =>
    rw [List.replicate_succ, List.replicate_succ, groupedDigits?, zeros]
    · rfl
    · simp

theorem ofDigits_power (base count : Nat) :
    ofDigits base (1 :: List.replicate count 0) = Nat.pow base count := by
  have general (start : Nat) : (List.replicate count 0).foldl
      (fun value digit => value * base + digit) start = start * Nat.pow base count := by
    induction count generalizing start with
    | zero => simp
    | succ count ih =>
      rw [List.replicate_succ, List.foldl_cons, ih, Nat.add_zero, Nat.mul_assoc]
      exact congrArg (start * ·) Nat.pow_succ'.symm
  simpa [ofDigits] using general 1

/-- A power of sixteen in hexadecimal digits is read, however many they are. -/
theorem readInteger_power (count : Nat) :
    readInteger (String.ofList ('0' :: 'x' :: '1' :: List.replicate count '0')) =
      some (Nat.pow 16 count : Nat) := by
  have plain : plainDigits? ('0' :: 'x' :: '1' :: List.replicate count '0') = none := rfl
  have ascii : ('0' :: 'x' :: '1' :: List.replicate count '0').map Text.asciiDigit =
      '0' :: 'x' :: '1' :: List.replicate count '0' := by
    have zero : Text.asciiDigit '0' = '0' := by decide
    rw [List.map_cons, List.map_cons, List.map_cons, List.map_replicate, zero]
    rfl
  have trimmed : Text.trimBy isNumberBlank ('0' :: 'x' :: '1' :: List.replicate count '0') =
      '0' :: 'x' :: '1' :: List.replicate count '0' := by
    refine Text.trimBy_none fun c member => ?_
    have listed : c = '0' ∨ c = 'x' ∨ c = '1' := by
      simp only [List.mem_cons, List.mem_replicate] at member
      tauto
    rcases listed with rfl | rfl | rfl <;> decide
  rw [readInteger, String.toList_ofList, plain]
  dsimp only
  rw [ascii, trimmed]
  change ((groupedDigits? 16 ('1' :: List.replicate count '0')).map (ofDigits 16)).map (signed false) = _
  rw [groupedDigits?_zeros, Option.map_some, Option.map_some, ofDigits_power]
  rfl

example : isWritable (Nat.pow 16 3600 : Nat) = false := by decide +kernel

end RailSpec.Number
