import RailSpec.Text.Utf8

/-! What UTF-8 writes, it reads: the bytes of a text are decoded to that text. -/

namespace RailSpec.Text.Utf8

private theorem toList_loop (bytes : ByteArray) (index : Nat) (passed : List UInt8) :
    ByteArray.toList.loop bytes index passed = passed.reverse ++ bytes.data.toList.drop index := by
  induction index, passed using ByteArray.toList.loop.induct bytes with
  | case1 index passed inside ih =>
    have further : bytes.data.toList.drop index =
        bytes.data[index] :: bytes.data.toList.drop (index + 1) :=
      List.drop_eq_getElem_cons (by simpa using inside)
    rw [ByteArray.toList.loop, if_pos inside, ih, further]
    simp [ByteArray.get!, inside]
  | case2 index passed outside =>
    have empty : bytes.data.toList.drop index = [] := List.drop_of_length_le (by simpa using outside)
    rw [ByteArray.toList.loop, if_neg outside, empty, List.append_nil]

theorem toList_eq (bytes : ByteArray) : bytes.toList = bytes.data.toList :=
  toList_loop bytes 0 []

section Inside

variable {position start read low high owed value : Nat} {first byte : UInt8} {pending : Lead}
  {rest : List UInt8}

theorem decodeFrom_last (code : byte.toNat = value % 64 + 0x80) (least : low ≤ value % 64 + 0x80)
    (most : value % 64 + 0x80 ≤ high) :
    decodeFrom position (.inside start first read ⟨1, low, high, value / 64⟩) (byte :: rest) =
      (decodeFrom (position + 1) .between rest).map (Char.ofNat value :: ·) := by
  have whole : value / 64 * 64 + value % 64 = value := by omega
  simp [decodeFrom, code, least, most, whole]

theorem decodeFrom_next (code : byte.toNat = value % 64 + 0x80) (least : low ≤ value % 64 + 0x80)
    (most : value % 64 + 0x80 ≤ high) :
    decodeFrom position (.inside start first read ⟨owed + 2, low, high, value / 64⟩) (byte :: rest) =
      decodeFrom (position + 1) (.inside start first (read + 1) ⟨owed + 1, 0x80, 0xBF, value⟩)
        rest := by
  have whole : value / 64 * 64 + value % 64 = value := by omega
  simp [decodeFrom, code, least, most, whole]

theorem decodeFrom_lead (wide : 0x80 ≤ byte.toNat) (announced : lead? byte.toNat = some pending) :
    decodeFrom position .between (byte :: rest) =
      decodeFrom (position + 1) (.inside position byte 1 pending) rest := by
  rw [decodeFrom, if_neg (Nat.not_lt.mpr wide), announced]

end Inside

section Leads

variable {byte bits : Nat}

theorem lead?_two (code : byte = bits + 0xC0) (least : 2 ≤ bits) (most : bits < 32) :
    lead? byte = some ⟨1, 0x80, 0xBF, bits⟩ := by
  unfold lead?
  rw [if_pos (by simp; omega), code, Nat.add_sub_cancel]

/-- The first byte of three; the bound on the second one keeps out overlong forms and surrogates. -/
theorem lead?_three (code : byte = bits + 0xE0) (most : bits < 16) :
    lead? byte =
      some ⟨2, if bits = 0 then 0xA0 else 0x80, if bits = 13 then 0x9F else 0xBF, bits⟩ := by
  unfold lead?
  rw [if_neg (by simp; omega)]
  by_cases overlong : bits = 0
  · simp [code, overlong]
  · by_cases surrogate : bits = 13
    · simp [code, surrogate]
    · rw [if_neg (by omega), if_neg (by omega), if_pos (by simp; omega)]
      simp [code, overlong, surrogate]

/-- The first byte of four; the bound on the second one keeps out overlong forms and what is beyond
the last code point. -/
theorem lead?_four (code : byte = bits + 0xF0) (most : bits ≤ 4) :
    lead? byte =
      some ⟨3, if bits = 0 then 0x90 else 0x80, if bits = 4 then 0x8F else 0xBF, bits⟩ := by
  unfold lead?
  rw [if_neg (by simp; omega), if_neg (by omega), if_neg (by omega), if_neg (by simp; omega)]
  by_cases overlong : bits = 0
  · simp [code, overlong]
  · by_cases last : bits = 4
    · simp [code, last]
    · rw [if_neg (by omega), if_pos (by simp; omega)]
      simp [code, overlong, last]

end Leads

section Characters

private theorem toNat_byte {code value : Nat} (same : code = value) (small : value < 256) :
    (UInt8.ofNat code).toNat = value := by
  rw [same]
  exact UInt8.toNat_ofNat_of_lt' small

/-- The bytes of a character are read as that character, and reading goes on behind them. -/
theorem decodeFrom_char (c : Char) (position : Nat) (rest : List UInt8) :
    ∃ behind, decodeFrom position .between (String.utf8EncodeChar c ++ rest) =
      (decodeFrom behind .between rest).map (c :: ·) := by
  have same : Char.ofNat c.toNat = c := Char.ofNat_toNat c
  have valid : c.toNat < 0xD800 ∨ 0xDFFF < c.toNat ∧ c.toNat < 0x110000 := c.valid
  unfold String.utf8EncodeChar
  have code : c.val.toNat = c.toNat := rfl
  simp only [code]
  generalize c.toNat = value at same valid
  -- the bytes behind the first one, from the last to the first
  have last : (UInt8.ofNat (value % 64 + 0x80)).toNat = value % 64 + 0x80 :=
    toNat_byte rfl (by omega)
  have second : (UInt8.ofNat (value / 64 % 64 + 0x80)).toNat = value / 64 % 64 + 0x80 :=
    toNat_byte rfl (by omega)
  have third : (UInt8.ofNat (value / 4096 % 64 + 0x80)).toNat = value / 64 / 64 % 64 + 0x80 :=
    toNat_byte (by omega) (by omega)
  split
  · have byte : (UInt8.ofNat value).toNat = value := toNat_byte rfl (by omega)
    refine ⟨position + 1, ?_⟩
    rw [List.cons_append, decodeFrom, byte, if_pos (by omega), same]
    rfl
  split
  · have first : (UInt8.ofNat (value / 64 % 32 + 0xC0)).toNat = value / 64 + 0xC0 :=
      toNat_byte (by omega) (by omega)
    refine ⟨position + 1 + 1, ?_⟩
    rw [List.cons_append, decodeFrom_lead (by omega) (lead?_two first (by omega) (by omega)),
      List.cons_append, decodeFrom_last last (by omega) (by omega), same]
    rfl
  split
  · have first : (UInt8.ofNat (value / 4096 % 16 + 0xE0)).toNat = value / 64 / 64 + 0xE0 :=
      toNat_byte (by omega) (by omega)
    refine ⟨position + 1 + 1 + 1, ?_⟩
    rw [List.cons_append, decodeFrom_lead (by omega) (lead?_three first (by omega)),
      List.cons_append, decodeFrom_next second (by split <;> omega) (by split <;> omega),
      List.cons_append, decodeFrom_last last (by omega) (by omega), same]
    rfl
  · have first : (UInt8.ofNat (value / 262144 % 8 + 0xF0)).toNat = value / 64 / 64 / 64 + 0xF0 :=
      toNat_byte (by omega) (by omega)
    refine ⟨position + 1 + 1 + 1 + 1, ?_⟩
    rw [List.cons_append, decodeFrom_lead (by omega) (lead?_four first (by omega)),
      List.cons_append, decodeFrom_next third (by split <;> omega) (by split <;> omega),
      List.cons_append, decodeFrom_next second (by omega) (by omega),
      List.cons_append, decodeFrom_last last (by omega) (by omega), same]
    rfl

theorem decodeFrom_encoded (text : List Char) (position : Nat) :
    decodeFrom position .between (text.flatMap String.utf8EncodeChar) = .ok text := by
  induction text generalizing position with
  | nil => rfl
  | cons c rest ih =>
    obtain ⟨behind, read⟩ := decodeFrom_char c position (rest.flatMap String.utf8EncodeChar)
    rw [List.flatMap_cons, read, ih]
    rfl

end Characters

theorem toList_encode (text : String) :
    (encode text).toList = text.toList.flatMap String.utf8EncodeChar := by
  rw [toList_eq]
  have spelled : text.toByteArray = text.toList.utf8Encode := by
    rw [← String.toByteArray_ofList, String.ofList_toList]
  change text.toByteArray.data.toList = _
  rw [spelled, List.utf8Encode, List.toList_data_toByteArray]

/-- The bytes of a text are read as that text. -/
theorem decode_encode (text : String) : decode (encode text) = .ok text := by
  rw [decode, toList_encode, decodeFrom_encoded]
  exact congrArg Except.ok (String.ofList_toList)

end RailSpec.Text.Utf8
