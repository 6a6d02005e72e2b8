import Mathlib.Order.Monotone.Basic
import RailSpec.Node.Source
import RailSpec.ParseTree.Offset
import RailSpec.Proofs.Text.Utf8

/-!
Byte offsets as indexes of characters. An offset stands for the number of whole characters in front
of it, whether it is looked up in a table or, in an ASCII text, taken as it is; so a piece of the
bytes of a text that begins and ends between characters is what the piece of its characters encodes
to.
-/

namespace RailSpec

open Text.Utf8 (width encode)

namespace Source

/-- A piece of a source: all up to where it ends, without what lies before it. -/
theorem slice_ofString (text : String) (start stop : Nat) :
    (ofString text).slice start stop = (text.toList.take stop).drop start := by
  simp [slice, ofString, List.drop_take]

/-- An index behind a source counts as its end. -/
theorem slice_min (text : String) (start stop : Nat) :
    (ofString text).slice (min start text.toList.length) (min stop text.toList.length) =
      (ofString text).slice start stop := by
  rw [slice_ofString, slice_ofString, ← List.take_eq_take_min]
  rcases Nat.le_total start text.toList.length with inside | behind
  · rw [Nat.min_eq_left inside]
  · have short : (text.toList.take stop).length ≤ text.toList.length := List.length_take_le' ..
    rw [Nat.min_eq_right behind, List.drop_of_length_le short,
      List.drop_of_length_le (short.trans behind)]

end Source

namespace ParseTree

/-- How many whole characters of a text lie in front of a byte offset. -/
def wholeBefore : List Char → Nat → Nat
  | [], _ => 0
  | c :: rest, offset =>
    if offset < width c then 0 else wholeBefore rest (offset - width c) + 1

/-- A byte offset between two characters of a text, at one of its ends, or behind it. -/
def IsBetween (text : String) (offset : Nat) : Prop :=
  (encode text).size ≤ offset ∨ ∃ front back, text = front ++ back ∧ (encode front).size = offset

theorem wholeBefore_le_length (text : List Char) (offset : Nat) :
    wholeBefore text offset ≤ text.length := by
  induction text generalizing offset with
  | nil => exact Nat.le_refl _
  | cons c rest ih =>
    rw [wholeBefore]
    split
    · exact Nat.zero_le _
    · exact Nat.succ_le_succ (ih _)

theorem wholeBefore_mono (text : List Char) : Monotone (wholeBefore text) := by
  induction text with
  | nil => exact fun _ _ _ => Nat.le_refl _
  | cons c rest ih =>
    intro offset later before
    rw [wholeBefore, wholeBefore]
    split
    · exact Nat.zero_le _
    · rename_i past
      rw [if_neg fun inside => past (Nat.lt_of_le_of_lt before inside)]
      exact Nat.succ_le_succ (ih (Nat.sub_le_sub_right before _))

/-- Where every character has one byte, offsets and indexes are the same up to the end. -/
theorem wholeBefore_narrow {text : List Char} (narrow : ∀ c ∈ text, width c = 1) (offset : Nat) :
    wholeBefore text offset = min offset text.length := by
  induction text generalizing offset with
  | nil => simp [wholeBefore]
  | cons c rest ih =>
    obtain ⟨single, others⟩ := List.forall_mem_cons.mp narrow
    rw [wholeBefore, single, ih others, List.length_cons]
    split <;> omega

/-! Tables. -/

namespace OffsetMap

theorem indexesFrom_getLast? (index : Nat) (text : List Char) :
    (indexesFrom index text).getLast? = some (index + text.length) := by
  induction text generalizing index with
  | nil => rfl
  | cons c rest ih =>
    rw [indexesFrom, List.getLast?_append, ih, List.length_cons, Nat.add_right_comm]
    rfl

theorem indexesFrom_getD (index : Nat) (text : List Char) (offset : Nat) :
    ((indexesFrom index text)[offset]?).getD (index + text.length) =
      index + wholeBefore text offset := by
  induction text generalizing index offset with
  | nil =>
    cases offset with
    | zero => rfl
    | succ offset => rfl
  | cons c rest ih =>
    rw [indexesFrom, wholeBefore]
    split
    · rename_i inside
      rw [List.getElem?_append_left (by simpa using inside),
        List.getElem?_replicate_of_lt inside]
      rfl
    · rename_i past
      rw [List.getElem?_append_right (by simpa using past), List.length_replicate,
        List.length_cons, ← Nat.add_assoc, Nat.add_right_comm, ih]
      omega

/-- A table gives for every offset the number of whole characters before it. -/
theorem toCharacter_table (text : List Char) (offset : Nat) :
    (table (indexesFrom 0 text).toArray).toCharacter offset = wholeBefore text offset := by
  have last : (indexesFrom 0 text).toArray.back?.getD 0 = 0 + text.length := by
    rw [List.back?_toArray, indexesFrom_getLast?]
    rfl
  rw [toCharacter, last, List.getElem?_toArray, indexesFrom_getD, Nat.zero_add]

/-- A text whose offsets are taken as they are has one byte for each character. -/
theorem narrow_of_all {text : List Char} (ascii : text.all (fun c => c.toNat < 128) = true) :
    ∀ c ∈ text, width c = 1 := by
  intro c member
  have small : c.toNat < 128 := of_decide_eq_true (List.all_eq_true.mp ascii c member)
  exact Char.utf8Size_eq_one_iff.mpr (UInt32.le_iff_toNat_le.mpr (Nat.le_of_lt_succ small))

/-- Up to the end of a text its map gives the same indexes as its table. -/
theorem min_toCharacter (text : String) (offset : Nat) :
    min ((ofString text).toCharacter offset) text.toList.length =
      wholeBefore text.toList offset := by
  unfold ofString
  split
  · rename_i ascii
    exact (wholeBefore_narrow (narrow_of_all ascii) offset).symm
  · rw [toCharacter_table]
    exact Nat.min_eq_left (wholeBefore_le_length _ _)

theorem toCharacter_mono (text : String) : Monotone (ofString text).toCharacter := by
  unfold ofString
  split
  · exact fun _ _ before => before
  · intro offset later before
    rw [toCharacter_table, toCharacter_table]
    exact wholeBefore_mono _ before

/-- The piece of a text between two offsets, by the whole characters in front of them. -/
theorem slice_toCharacter (text : String) (start stop : Nat) :
    (Source.ofString text).slice ((ofString text).toCharacter start)
        ((ofString text).toCharacter stop) =
      (text.toList.take (wholeBefore text.toList stop)).drop (wholeBefore text.toList start) := by
  rw [← Source.slice_min, min_toCharacter, min_toCharacter, Source.slice_ofString]

end OffsetMap

/-! Bytes. -/

section Bytes

variable {text : String} {offset start stop : Nat}

theorem encode_ofList (characters : List Char) :
    (encode (String.ofList characters)).toList = characters.flatMap String.utf8EncodeChar := by
  rw [Text.Utf8.toList_encode, String.toList_ofList]

theorem size_encode (text : String) :
    (encode text).size = (text.toList.flatMap String.utf8EncodeChar).length := by
  rw [← Text.Utf8.toList_encode, Text.Utf8.toList_eq]
  rfl

theorem wholeBefore_zero (text : List Char) : wholeBefore text 0 = 0 := by
  cases text with
  | nil => rfl
  | cons c rest => exact if_pos c.utf8Size_pos

theorem wholeBefore_append (front back : List Char) (offset : Nat) :
    wholeBefore (front ++ back) ((front.flatMap String.utf8EncodeChar).length + offset) =
      front.length + wholeBefore back offset := by
  induction front with
  | nil => simp
  | cons c rest ih =>
    have first : (String.utf8EncodeChar c).length = width c := String.length_utf8EncodeChar c
    rw [List.cons_append, wholeBefore, List.flatMap_cons, List.length_append, first,
      if_neg (by omega), Nat.add_assoc, Nat.add_sub_cancel_left, ih, List.length_cons,
      Nat.add_right_comm]

theorem wholeBefore_front (front back : List Char) :
    wholeBefore (front ++ back) (front.flatMap String.utf8EncodeChar).length = front.length := by
  have counted := wholeBefore_append front back 0
  rwa [wholeBefore_zero] at counted

/-- The bytes in front of a place between characters are those of the whole characters there. -/
theorem IsBetween.take_encode (between : IsBetween text offset) :
    (encode text).toList.take offset =
      (text.toList.take (wholeBefore text.toList offset)).flatMap String.utf8EncodeChar := by
  rw [Text.Utf8.toList_encode]
  rcases between with behind | ⟨front, back, rfl, rfl⟩
  · rw [size_encode] at behind
    obtain ⟨extra, rfl⟩ := Nat.exists_eq_add_of_le behind
    have all := wholeBefore_append text.toList [] extra
    rw [List.append_nil] at all
    rw [all, List.take_of_length_le (Nat.le_add_right _ _),
      List.take_of_length_le (Nat.le_add_right _ _)]
  · rw [size_encode, String.toList_append, wholeBefore_front, List.take_left, List.flatMap_append,
      List.take_left]

/-- A beginning of a list as a shorter beginning and the rest of it. -/
theorem take_append_drop_take {α : Type} {start stop : Nat} (before : start ≤ stop) (list : List α) :
    list.take start ++ (list.take stop).drop start = list.take stop := by
  have parts := List.take_append_drop start (list.take stop)
  rwa [List.take_take, Nat.min_eq_left before] at parts

theorem drop_take_of_le {α : Type} {start stop : Nat} (behind : stop ≤ start) (list : List α) :
    (list.take stop).drop start = [] :=
  List.drop_of_length_le ((List.length_take_le _ _).trans behind)

/-- The bytes between two places between characters are those of the characters there. -/
theorem IsBetween.extract_encode (start_between : IsBetween text start)
    (stop_between : IsBetween text stop) :
    ((encode text).toList.take stop).drop start =
      ((text.toList.take (wholeBefore text.toList stop)).drop
        (wholeBefore text.toList start)).flatMap String.utf8EncodeChar := by
  rcases Nat.le_total start stop with before | behind
  · have whole := take_append_drop_take (wholeBefore_mono text.toList before) text.toList
    have bytes := congrArg (List.flatMap String.utf8EncodeChar) whole
    rw [List.flatMap_append, ← stop_between.take_encode, ← start_between.take_encode] at bytes
    exact List.append_cancel_left ((take_append_drop_take before _).trans bytes.symm)
  · rw [drop_take_of_le behind, drop_take_of_le (wholeBefore_mono text.toList behind)]
    rfl

theorem toList_extract (bytes : ByteArray) (start stop : Nat) :
    (bytes.extract start stop).toList = (bytes.toList.take stop).drop start := by
  rw [Text.Utf8.toList_eq, Text.Utf8.toList_eq, ByteArray.data_extract, Array.toList_extract,
    List.extract_eq_take_drop, List.drop_take]

/-- A character of a narrow text is one byte. -/
theorem length_narrow {characters : List Char} (narrow : ∀ c ∈ characters, width c = 1) :
    (characters.flatMap String.utf8EncodeChar).length = characters.length := by
  induction characters with
  | nil => rfl
  | cons c rest ih =>
    obtain ⟨single, others⟩ := List.forall_mem_cons.mp narrow
    have first : (String.utf8EncodeChar c).length = 1 :=
      (String.length_utf8EncodeChar c).trans single
    rw [List.flatMap_cons, List.length_append, first, ih others, List.length_cons, Nat.add_comm]

/-- The number of bytes of a beginning of a text stands for its number of characters. -/
theorem OffsetMap.toCharacter_front (front back : String) :
    (ofString (front ++ back)).toCharacter (encode front).size = front.length := by
  rw [size_encode, ← String.length_toList]
  unfold ofString
  split
  · rename_i ascii
    refine length_narrow fun c member => narrow_of_all ascii c ?_
    rw [String.toList_append]
    exact List.mem_append_left _ member
  · rw [toCharacter_table, String.toList_append, wholeBefore_front]

end Bytes

/-- Offsets are translated exactly. The characters between two translated offsets encode to the bytes
between the offsets, as far as there are any. Translation keeps the order of offsets and sends the
number of bytes of a beginning of a text to its number of characters; and taking the offsets of an
ASCII text as they are gives the same pieces as a table. -/
theorem offsets_exact (text : String) :
    (∀ start stop, IsBetween text start → IsBetween text stop →
      encode (String.ofList ((Source.ofString text).slice
          ((OffsetMap.ofString text).toCharacter start)
          ((OffsetMap.ofString text).toCharacter stop))) =
        (encode text).extract start stop) ∧
    Monotone (OffsetMap.ofString text).toCharacter ∧
    (∀ front back, text = front ++ back →
      (OffsetMap.ofString text).toCharacter (encode front).size = front.length) ∧
    ∀ start stop, (Source.ofString text).slice ((OffsetMap.ofString text).toCharacter start)
        ((OffsetMap.ofString text).toCharacter stop) =
      (Source.ofString text).slice
        ((OffsetMap.table (OffsetMap.indexesFrom 0 text.toList).toArray).toCharacter start)
        ((OffsetMap.table (OffsetMap.indexesFrom 0 text.toList).toArray).toCharacter stop) := by
  refine ⟨fun start stop start_between stop_between => ?_, OffsetMap.toCharacter_mono text, ?_, ?_⟩
  · have bytes := start_between.extract_encode stop_between
    rw [← OffsetMap.slice_toCharacter, ← encode_ofList, ← toList_extract, Text.Utf8.toList_eq,
      Text.Utf8.toList_eq] at bytes
    exact ByteArray.ext (Array.ext' bytes.symm)
  · rintro front back rfl
    exact OffsetMap.toCharacter_front front back
  · intro start stop
    rw [OffsetMap.slice_toCharacter, OffsetMap.toCharacter_table, OffsetMap.toCharacter_table,
      Source.slice_ofString]

/-- In a text with a letter of two bytes and a digit, the digit lies between the offsets 2 and 3. -/
theorem offsets_exact_accented : IsBetween "é1" 2 ∧ IsBetween "é1" 3 ∧
    encode (String.ofList ((Source.ofString "é1").slice
        ((OffsetMap.ofString "é1").toCharacter 2) ((OffsetMap.ofString "é1").toCharacter 3))) =
      (encode "é1").extract 2 3 ∧
    (OffsetMap.ofString "é1").toCharacter (encode "é").size = "é".length := by
  have whole : "é1" = "é" ++ "1" := by decide +kernel
  have letter : IsBetween "é1" 2 := .inr ⟨"é", "1", whole, by decide +kernel⟩
  have digit : IsBetween "é1" 3 := .inl (by decide +kernel)
  obtain ⟨exact, _, ends, _⟩ := offsets_exact "é1"
  exact ⟨letter, digit, exact 2 3 letter digit, ends "é" "1" whole⟩

end ParseTree

end RailSpec
