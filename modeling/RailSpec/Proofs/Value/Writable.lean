import RailSpec.Proofs.Result
import RailSpec.Proofs.Value
import RailSpec.Schema.Payload

/-!
Values that can be written: every integer in them has few enough digits. Whatever is written of such
a value, the writing does not fail.
-/

namespace RailSpec

namespace Number

/-- Digits of a base make up less than the power of the base that has one more digit. -/
theorem ofDigits_lt {base : Nat} {digits : List Nat} (small : ∀ digit ∈ digits, digit < base) :
    ofDigits base digits < Nat.pow base digits.length := by
  have general (start : Nat) :
      digits.foldl (fun value digit => value * base + digit) start <
        (start + 1) * Nat.pow base digits.length := by
    induction digits generalizing start with
    | nil => simp
    | cons digit rest ih =>
      obtain ⟨here, later⟩ := List.forall_mem_cons.mp small
      have step : start * base + digit + 1 ≤ (start + 1) * base := by
        rw [Nat.add_mul, Nat.one_mul]
        omega
      have next : Nat.pow base (rest.length + 1) = base * Nat.pow base rest.length :=
        Nat.pow_succ'
      calc rest.foldl (fun value digit => value * base + digit) (start * base + digit)
          < (start * base + digit + 1) * Nat.pow base rest.length := ih later _
        _ ≤ (start + 1) * base * Nat.pow base rest.length := Nat.mul_le_mul_right _ step
        _ = (start + 1) * Nat.pow base (rest.length + 1) := by
          rw [next, Nat.mul_assoc]
  simpa [ofDigits] using general 0

theorem natAbs_signed (negative : Bool) (magnitude : Nat) :
    (signed negative magnitude).natAbs = magnitude := by
  cases negative <;> simp [signed]

/-- Few enough decimal digits make an integer that can be written. -/
theorem isWritable_signed {digits : List Nat} (small : ∀ digit ∈ digits, digit < 10)
    (short : digits.length ≤ digitLimit) (negative : Bool) :
    isWritable (signed negative (ofDigits 10 digits)) = true := by
  have bounded {limit : Nat} (short : digits.length ≤ limit) :
      ofDigits 10 digits < Nat.pow 10 limit :=
    Nat.lt_of_lt_of_le (ofDigits_lt small) (Nat.pow_le_pow_right (by decide) short)
  rw [isWritable, natAbs_signed, decide_eq_true_iff]
  exact bounded short

end Number

namespace Value

/-- A value in which every integer can be written. -/
inductive IsWritable : Value → Prop where
  | made {value : Value} (integer : ∀ number, value = .int number → Number.isWritable number = true)
    (each : ∀ part ∈ value.parts, IsWritable part) : IsWritable value

theorem IsWritable.part {value part : Value} (writable : value.IsWritable)
    (member : part ∈ value.parts) : part.IsWritable := by
  obtain ⟨_, each⟩ := writable
  exact each part member

theorem IsWritable.integer {number : Int} (writable : (int number).IsWritable) :
    Number.isWritable number = true := by
  obtain ⟨integer, _⟩ := writable
  exact integer number rfl

theorem isWritable_int {number : Int} (few : Number.isWritable number = true) :
    (int number).IsWritable := by
  refine .made ?_ (fun part member => by cases member)
  intro other same
  cases same
  exact few

theorem isWritable_null : null.IsWritable :=
  .made nofun nofun

theorem isWritable_bool (truth : Bool) : (bool truth).IsWritable :=
  .made nofun nofun

theorem isWritable_float (number : Float) : (float number).IsWritable :=
  .made nofun nofun

theorem isWritable_text (characters : String) : (text characters).IsWritable :=
  .made nofun nofun

theorem isWritable_list {items : List Value} (each : ∀ item ∈ items, item.IsWritable) :
    (list items).IsWritable :=
  .made nofun each

theorem isWritable_mapping {fields : Fields} (each : ∀ field ∈ fields, field.2.IsWritable) :
    (mapping fields).IsWritable :=
  .made nofun (List.forall_mem_map.mpr each)

mutual

/-- The integers that are written with a value. What a deferred value may give and what an object
holds is not written. -/
def integers : Value → List Int
  | .int number => [number]
  | .list items | .tuple items => integersEach items
  | .mapping fields => integersFields fields
  | _ => []

def integersEach : List Value → List Int
  | [] => []
  | item :: rest => integers item ++ integersEach rest

def integersFields : List (String × Value) → List Int
  | [] => []
  | (_, value) :: rest => integers value ++ integersFields rest

end

theorem integersEach_eq (items : List Value) : integersEach items = items.flatMap integers := by
  induction items with
  | nil => rfl
  | cons item rest ih => rw [integersEach, ih, List.flatMap_cons]

theorem integersFields_eq (fields : Fields) :
    integersFields fields = fields.flatMap fun field => integers field.2 := by
  induction fields with
  | nil => rfl
  | cons field rest ih => rw [integersFields, ih, List.flatMap_cons]

/-- A value all of whose written integers can be written. -/
def WritesIntegers (value : Value) : Prop :=
  ∀ number ∈ value.integers, Number.isWritable number = true

instance (value : Value) : Decidable value.WritesIntegers :=
  inferInstanceAs (Decidable (∀ number ∈ value.integers, Number.isWritable number = true))

section Written

variable {value : Value} {items : List Value} {fields : Fields}

theorem writesIntegers_int {number : Int} :
    (int number).WritesIntegers ↔ Number.isWritable number = true :=
  List.forall_mem_singleton

theorem writesIntegers_list :
    (list items).WritesIntegers ↔ ∀ item ∈ items, item.WritesIntegers := by
  rw [WritesIntegers, integers, integersEach_eq, List.forall_mem_flatMap]
  rfl

theorem writesIntegers_tuple :
    (tuple items).WritesIntegers ↔ ∀ item ∈ items, item.WritesIntegers :=
  writesIntegers_list

theorem writesIntegers_mapping :
    (mapping fields).WritesIntegers ↔ ∀ field ∈ fields, field.2.WritesIntegers := by
  rw [WritesIntegers, integers, integersFields_eq, List.forall_mem_flatMap]
  rfl

theorem IsWritable.writesIntegers (writable : value.IsWritable) : value.WritesIntegers := by
  induction value using byParts with
  | step value ih =>
    have each (part : Value) (member : part ∈ value.parts) : part.WritesIntegers :=
      ih part member (writable.part member)
    cases value with
    | int number => exact writesIntegers_int.mpr writable.integer
    | list items => exact writesIntegers_list.mpr each
    | tuple items => exact writesIntegers_tuple.mpr each
    | mapping fields =>
      apply writesIntegers_mapping.mpr
      exact fun field member => each field.2 (List.mem_map_of_mem member)
    | _ => exact fun _ => nofun

theorem shownEach_eq (items : List Value) : shownEach items = items.mapM shown := by
  induction items with
  | nil => rw [shownEach, List.mapM_nil]; rfl
  | cons item rest ih => rw [shownEach, ih, List.mapM_cons]

theorem shownFields_eq (fields : Fields) :
    shownFields fields =
      fields.mapM fun field => field.2.shown.map fun text => Text.shown field.1 ++ ": " ++ text := by
  induction fields with
  | nil => rw [shownFields, List.mapM_nil]; rfl
  | cons field rest ih =>
    rw [shownFields, ih, List.mapM_cons]
    cases field.2.shown <;> rfl

theorem spelledEach_eq (items : List Value) : spelledEach items = items.mapM spelled := by
  induction items with
  | nil => rw [spelledEach, List.mapM_nil]; rfl
  | cons item rest ih => rw [spelledEach, ih, List.mapM_cons]

theorem spelledFields_eq (fields : Fields) :
    spelledFields fields =
      fields.mapM fun field => field.2.spelled.map fun text => field.1 ++ ": " ++ text := by
  induction fields with
  | nil => rw [spelledFields, List.mapM_nil]; rfl
  | cons field rest ih =>
    rw [spelledFields, ih, List.mapM_cons]
    cases field.2.spelled <;> rfl

/-- A value can be shown just if the integers that are written with it can be. -/
theorem shown_returns_iff (value : Value) :
    (∃ text, value.shown = .ok text) ↔ value.WritesIntegers := by
  induction value using byParts with
  | step value ih =>
    cases value with
    | int number =>
      rw [shown, Number.writeInteger, writesIntegers_int]
      by_cases few : Number.isWritable number = true
      · simp [few]
      · simp [few]
    | list items =>
      rw [shown, map_ok_iff, shownEach_eq, mapM_ok_iff, writesIntegers_list]
      exact forall₂_congr ih
    | tuple items =>
      have each : ∀ item ∈ items, (∃ text, item.shown = .ok text) ↔ item.WritesIntegers := ih
      rw [writesIntegers_tuple, ← forall₂_congr each]
      rcases items with _ | ⟨item, _ | ⟨second, rest⟩⟩
      · exact ⟨fun _ => List.forall_mem_nil _, fun _ => ⟨_, rfl⟩⟩
      · rw [shown, map_ok_iff]
        simp
      · rw [shown, map_ok_iff, shownEach_eq, mapM_ok_iff]
        simp
    | mapping fields =>
      rw [shown, map_ok_iff, shownFields_eq, mapM_ok_iff, writesIntegers_mapping]
      exact forall₂_congr fun field member =>
        map_ok_iff.trans (ih field.2 (List.mem_map_of_mem member))
    | null | bool _ | float _ | text _ | deferred _ | object _ =>
      exact ⟨fun _ _ => nofun, fun _ => ⟨_, rfl⟩⟩

/-- A value can be spelled just if it can be shown. -/
theorem spelled_returns_iff (value : Value) :
    (∃ text, value.spelled = .ok text) ↔ value.WritesIntegers := by
  induction value using byParts with
  | step value ih =>
    cases value with
    | list items =>
      rw [spelled, map_ok_iff, spelledEach_eq, mapM_ok_iff, writesIntegers_list]
      exact forall₂_congr ih
    | mapping fields =>
      rw [spelled, map_ok_iff, spelledFields_eq, mapM_ok_iff, writesIntegers_mapping]
      exact forall₂_congr fun field member =>
        map_ok_iff.trans (ih field.2 (List.mem_map_of_mem member))
    | null | bool _ | text _ => exact ⟨fun _ _ => nofun, fun _ => ⟨_, rfl⟩⟩
    | _ => exact shown_returns_iff _

theorem message_returns (writable : value.IsWritable) : ∃ text, value.message = .ok text := by
  cases value with
  | text characters => exact ⟨characters, rfl⟩
  | _ => exact (shown_returns_iff _).mpr writable.writesIntegers

end Written

end Value

end RailSpec
