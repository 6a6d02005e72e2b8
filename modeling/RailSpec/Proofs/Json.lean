import RailSpec.Json
import RailSpec.Proofs.Fields
import RailSpec.Proofs.Value.Writable

/-!
What comes of reading JSON. A value that was read can be written again, what is left to read behind
it is an end of the text, and a text is refused for its form or for an integer in it that has more
digits than are allowed.
-/

namespace RailSpec.Json

/-- Somewhere in a text there are so many digits in a row. -/
def HasDigits (text : List Char) (count : Nat) : Prop :=
  ∃ digits : List Char, digits <:+: text ∧ digits.length = count ∧ ∀ c ∈ digits, c.isDigit = true

/-- What a reader may give for a text: a value with an end of the text, a complaint about the form,
or an integer of the text that is too long. -/
inductive Reads {α : Type} (limit : Nat) (holds : α → Prop) (text : List Char) :
    Except Stop (α × Cursor) → Prop where
  | value {value : α} {behind : Cursor} (right : holds value) (left : behind.rest <:+ text) :
    Reads limit holds text (.ok (value, behind))
  | complaint (what : Complaint) (position : Nat) :
    Reads limit holds text (.error (.complaint what position))
  | tooLong {count : Nat} (long : limit < count) (digits : HasDigits text count) :
    Reads limit holds text (.error (.digits (.read count)))

section Reads

variable {α β : Type} {limit : Nat} {holds : α → Prop} {more : β → Prop} {text whole : List Char}
  {result : Except Stop (α × Cursor)}

theorem Reads.of_end (reads : Reads limit holds text result) (part : text <:+ whole) :
    Reads limit holds whole result := by
  cases reads with
  | value right left => exact .value right (left.trans part)
  | complaint what position => exact .complaint what position
  | tooLong long digits =>
    obtain ⟨run, inside, counted, each⟩ := digits
    exact .tooLong long ⟨run, inside.trans part.isInfix, counted, each⟩

/-- A reader that goes on behind what another one read. -/
theorem Reads.bind (reads : Reads limit holds text result)
    {next : α × Cursor → Except Stop (β × Cursor)}
    (later : ∀ value behind, holds value → behind.rest <:+ text →
      Reads limit more behind.rest (next (value, behind))) :
    Reads limit more text (result >>= next) := by
  cases reads with
  | value right left => exact (later _ _ right left).of_end left
  | complaint what position => exact .complaint what position
  | tooLong long digits => exact .tooLong long digits

theorem Reads.map (reads : Reads limit holds text result) {change : α × Cursor → β × Cursor}
    (keeps : ∀ value behind, holds value → more (change (value, behind)).1 ∧
      (change (value, behind)).2 = behind) : Reads limit more text (result.map change) := by
  cases reads with
  | @value value behind right left =>
    obtain ⟨better, same⟩ := keeps value behind right
    refine .value better ?_
    rw [same]
    exact left
  | complaint what position => exact .complaint what position
  | tooLong long digits => exact .tooLong long digits

end Reads

theorem advance_end (cursor : Cursor) (count : Nat) : (cursor.advance count).rest <:+ cursor.rest :=
  List.drop_suffix ..

theorem skip_end (cursor : Cursor) : cursor.skip.rest <:+ cursor.rest :=
  advance_end ..

section Strings

variable {limit : Nat}

theorem before_reads {c : Char} {text : List Char} {read : Except Stop (List Char × Cursor)}
    (reads : Reads limit (fun _ => True) text read) :
    Reads limit (fun _ => True) text (before c read) :=
  reads.map fun _ _ _ => ⟨trivial, rfl⟩

theorem escapeAt_error {opening position : Nat} {text : List Char} {stop : Stop}
    (refused : escapeAt opening position text = .error stop) :
    ∃ what place, stop = .complaint what place := by
  unfold escapeAt at refused
  repeat' split at refused
  all_goals cases refused
  all_goals exact ⟨_, _, rfl⟩

theorem readString_reads (opening position passed : Nat) (text : List Char) :
    Reads limit (fun _ => True) text (readString opening position passed text) := by
  induction text generalizing position passed with
  | nil => exact .complaint ..
  | cons c rest ih =>
    have further (position passed : Nat) :=
      (ih position passed).of_end (List.suffix_cons c rest)
    unfold readString
    split
    · exact further _ _
    · split
      · exact .value trivial (List.suffix_cons c rest)
      · split
        · split
          · exact before_reads (further _ _)
          · rename_i refused
            obtain ⟨what, place, rfl⟩ := escapeAt_error refused
            exact .complaint ..
        · split
          · exact .complaint ..
          · exact before_reads (further _ _)

end Strings

section Numbers

theorem wholeDigits_digits (text : List Char) : ∀ c ∈ wholeDigits text, c.isDigit = true := by
  have leading (c : Char) (member : c ∈ leadingDigits text) : c.isDigit = true :=
    List.all_eq_true.mp List.all_takeWhile c member
  unfold wholeDigits
  split
  · simp
  · exact leading

theorem wholeDigits_front (text : List Char) : wholeDigits text <+: text := by
  have leading : leadingDigits text <+: text := List.takeWhile_prefix ..
  unfold wholeDigits
  split
  · rename_i rest zero
    rw [zero] at leading
    exact (List.prefix_append ['0'] rest).trans leading
  · exact leading

theorem digitValues_small {digits : List Char} (each : ∀ c ∈ digits, c.isDigit = true) :
    ∀ digit ∈ digitValues digits, digit < 10 := by
  refine List.forall_mem_map.mpr fun c member => ?_
  have range := each c member
  simp only [Char.isDigit, Bool.and_eq_true, decide_eq_true_eq] at range
  have upper : c.toNat ≤ 57 := range.2
  omega

variable {limit : Nat}

theorem readNumber_reads (bounded : limit ≤ Number.digitLimit) (cursor : Cursor) :
    Reads limit Value.IsWritable cursor.rest (readNumber limit cursor) := by
  unfold readNumber
  extract_lets negative body whole behind places fraction exponent lead number
  have digits : ∀ c ∈ whole, c.isDigit = true := wholeDigits_digits body
  have inside : whole <:+: cursor.rest := by
    have part : body <:+ cursor.rest := by
      unfold body
      split
      · exact List.drop_suffix ..
      · exact List.suffix_refl _
    exact (wholeDigits_front body).isInfix.trans part.isInfix
  clear_value places exponent lead number
  split
  · exact .complaint ..
  · split
    · split
      · rename_i long
        exact .tooLong long ⟨whole, inside, rfl, digits⟩
      · rename_i short
        refine .value (Value.isWritable_int ?_) (advance_end ..)
        refine Number.isWritable_signed (digitValues_small digits) ?_ _
        rw [digitValues, List.length_map]
        omega
    · exact .value (Value.isWritable_float _) (advance_end ..)

theorem words_writable : ∀ word ∈ words, word.2.IsWritable := by
  intro word member
  simp only [words, List.mem_cons, List.not_mem_nil, or_false] at member
  rcases member with rfl | rfl | rfl | rfl | rfl | rfl
  · exact Value.isWritable_null
  · exact Value.isWritable_bool _
  · exact Value.isWritable_bool _
  · exact Value.isWritable_float _
  · exact Value.isWritable_float _
  · exact Value.isWritable_float _

theorem readBare_reads (bounded : limit ≤ Number.digitLimit) (cursor : Cursor) :
    Reads limit Value.IsWritable cursor.rest (readBare limit cursor) := by
  unfold readBare
  split
  · rename_i found
    exact .value (words_writable _ (List.mem_of_find?_eq_some found)) (advance_end ..)
  · exact readNumber_reads bounded cursor

end Numbers

section Values

variable {limit fuel : Nat}

/-- What the readers that call each other do with some fuel. -/
private structure AllRead (limit fuel : Nat) : Prop where
  value (cursor : Cursor) : Reads limit Value.IsWritable cursor.rest (readValue limit fuel cursor)
  fields {fields : Fields} (cursor : Cursor) (each : ∀ field ∈ fields, field.2.IsWritable) :
    Reads limit Value.IsWritable cursor.rest (readFields limit fuel fields cursor)
  items {items : List Value} (cursor : Cursor) (each : ∀ item ∈ items, item.IsWritable) :
    Reads limit Value.IsWritable cursor.rest (readItems limit fuel items cursor)

private theorem readValue_step (bounded : limit ≤ Number.digitLimit) (ih : AllRead limit fuel)
    (cursor : Cursor) :
    Reads limit Value.IsWritable cursor.rest (readValue limit (fuel + 1) cursor) := by
  have inner : (cursor.advance 1).skip.rest <:+ cursor.rest :=
    (skip_end _).trans (advance_end ..)
  unfold readValue
  split
  · rename_i rest opening
    rw [opening]
    refine Reads.of_end ?_ (List.suffix_cons '"' rest)
    exact (readString_reads ..).map fun characters _ _ => ⟨Value.isWritable_text _, rfl⟩
  · dsimp only
    split
    · exact .value (Value.isWritable_mapping (List.forall_mem_nil _)) ((advance_end ..).trans inner)
    · exact (ih.fields _ (List.forall_mem_nil _)).of_end inner
  · dsimp only
    split
    · exact .value (Value.isWritable_list (List.forall_mem_nil _)) ((advance_end ..).trans inner)
    · exact (ih.items _ (List.forall_mem_nil _)).of_end inner
  · exact readBare_reads bounded cursor

private theorem readFields_step (ih : AllRead limit fuel) {fields : Fields} (cursor : Cursor)
    (each : ∀ field ∈ fields, field.2.IsWritable) :
    Reads limit Value.IsWritable cursor.rest (readFields limit (fuel + 1) fields cursor) := by
  unfold readFields
  split
  · rename_i rest opening
    rw [opening]
    refine (Reads.bind (readString_reads ..) fun name behind _ _ => ?_).of_end
      (List.suffix_cons '"' rest)
    dsimp only
    split
    · refine (Reads.bind (ih.value _) fun value after writable _ => ?_).of_end
        (((skip_end _).trans (advance_end ..)).trans (skip_end behind))
      have all : ∀ field ∈ Fields.put fields (String.ofList name) value, field.2.IsWritable := by
        intro field member
        rcases Fields.mem_put member with rfl | old
        · exact writable
        · exact each field old
      dsimp only
      split
      · exact .value (Value.isWritable_mapping all) ((advance_end ..).trans (skip_end after))
      · exact (ih.fields _ all).of_end
          (((skip_end _).trans (advance_end ..)).trans (skip_end after))
      · exact .complaint ..
    · exact .complaint ..
  · exact .complaint ..

private theorem readItems_step (ih : AllRead limit fuel) {items : List Value} (cursor : Cursor)
    (each : ∀ item ∈ items, item.IsWritable) :
    Reads limit Value.IsWritable cursor.rest (readItems limit (fuel + 1) items cursor) := by
  unfold readItems
  refine Reads.bind (ih.value cursor) fun item after writable _ => ?_
  have all : ∀ other ∈ item :: items, other.IsWritable := List.forall_mem_cons.mpr ⟨writable, each⟩
  dsimp only
  split
  · refine .value (Value.isWritable_list fun other member => ?_)
      ((advance_end ..).trans (skip_end after))
    exact all other (List.mem_reverse.mp member)
  · exact (ih.items _ all).of_end (((skip_end _).trans (advance_end ..)).trans (skip_end after))
  · exact .complaint ..

private theorem allRead (bounded : limit ≤ Number.digitLimit) (fuel : Nat) :
    AllRead limit fuel := by
  induction fuel with
  | zero => exact ⟨fun _ => .complaint .., fun _ _ => .complaint .., fun _ _ => .complaint ..⟩
  | succ fuel ih =>
    exact ⟨readValue_step bounded ih, readFields_step ih, readItems_step ih⟩

theorem readValue_reads (bounded : limit ≤ Number.digitLimit) (fuel : Nat) (cursor : Cursor) :
    Reads limit Value.IsWritable cursor.rest (readValue limit fuel cursor) :=
  (allRead bounded fuel).value cursor

end Values

section Texts

variable {limit : Nat}

/-- What comes of a whole text: a value, a complaint, or an integer of the text that is too long. -/
theorem readText_cases (bounded : limit ≤ Number.digitLimit) (text : List Char) :
    (∃ value, readText limit text = .ok value ∧ value.IsWritable) ∨
    (∃ what position, readText limit text = .error (.complaint what position)) ∨
    ∃ count, readText limit text = .error (.digits (.read count)) ∧ limit < count ∧
      HasDigits text count := by
  unfold readText
  split
  · exact .inr (.inl ⟨_, _, rfl⟩)
  · have reads := readValue_reads bounded (2 * text.length + 1) (Cursor.mk 0 text).skip
    generalize readValue limit (2 * text.length + 1) (Cursor.mk 0 text).skip = result at reads
    cases reads with
    | @value value behind writable left =>
      cases rest : behind.skip.rest with
      | nil => exact .inl ⟨value, by simp [rest, bind, Except.bind, pure, Except.pure], writable⟩
      | cons c more => exact .inr (.inl ⟨_, _, by simp [rest, bind, Except.bind]; rfl⟩)
    | complaint what position => exact .inr (.inl ⟨what, position, rfl⟩)
    | @tooLong count long digits =>
      obtain ⟨run, inside, counted, each⟩ := digits
      have part := (skip_end (Cursor.mk 0 text)).isInfix
      exact .inr (.inr ⟨count, rfl, long, run, inside.trans part, counted, each⟩)

/-- A text is read, refused for its form, or has more digits in a row than an integer may have. -/
theorem parse_cases (text : String) :
    (∃ value, parse text = .ok value ∧ value.IsWritable) ∨
    (∃ what line column position, parse text = .error (.complaint what line column position)) ∨
    ∃ count, parse text = .error (.digits (.read count)) ∧ Number.digitLimit < count ∧
      HasDigits text.toList count := by
  unfold parse parseWithin
  rcases readText_cases (Nat.le_refl Number.digitLimit) text.toList with
    ⟨value, read, writable⟩ | ⟨what, position, refused⟩ | ⟨count, refused, long, digits⟩
  · exact .inl ⟨value, by rw [read]; rfl, writable⟩
  · exact .inr (.inl ⟨what, _, _, position, by rw [refused]; rfl⟩)
  · exact .inr (.inr ⟨count, by rw [refused]; rfl, long, digits⟩)

end Texts

section Long

variable {digits : List Char}

theorem leadingDigits_all (each : ∀ c ∈ digits, c.isDigit = true) :
    leadingDigits digits = digits := by
  have whole : (digits ++ []).takeWhile Char.isDigit = digits ++ [].takeWhile Char.isDigit :=
    List.takeWhile_append_of_pos each
  simpa [leadingDigits] using whole

theorem wholeDigits_all (each : ∀ c ∈ digits, c.isDigit = true) (front : digits.head? ≠ some '0') :
    wholeDigits digits = digits := by
  rw [wholeDigits, leadingDigits_all each]
  split
  · rename_i rest
    exact absurd rfl front
  · rfl

theorem isDigit_ne {c other : Char} (digit : c.isDigit = true) (none : other.isDigit = false) :
    c ≠ other := by
  rintro rfl
  exact Bool.noConfusion (digit.symm.trans none)

theorem readNumber_long {limit position : Nat} (each : ∀ c ∈ digits, c.isDigit = true)
    (front : digits.head? ≠ some '0') (long : limit < digits.length) :
    readNumber limit ⟨position, digits⟩ = .error (.digits (.read digits.length)) := by
  have positive : digits.head? ≠ some '-' := by
    intro minus
    exact isDigit_ne (each _ (List.mem_of_mem_head? minus)) rfl rfl
  have filled : digits.isEmpty = false := by
    cases digits with
    | nil => exact absurd long (Nat.not_lt_zero limit)
    | cons c rest => rfl
  simp [readNumber, positive, wholeDigits_all each front, filled, fractionDigits, exponentParts,
    long]

theorem readBare_long {limit position : Nat} (each : ∀ c ∈ digits, c.isDigit = true)
    (front : digits.head? ≠ some '0') (long : limit < digits.length) :
    readBare limit ⟨position, digits⟩ = .error (.digits (.read digits.length)) := by
  have noWord : (words.find? fun word => word.1.isPrefixOf digits) = none := by
    rw [List.find?_eq_none]
    intro word member fits
    obtain ⟨c, rest, spelled, letter⟩ : ∃ c rest, word.1 = c :: rest ∧ c.isDigit = false := by
      simp only [words, List.mem_cons, List.not_mem_nil, or_false] at member
      rcases member with rfl | rfl | rfl | rfl | rfl | rfl <;> exact ⟨_, _, rfl, rfl⟩
    rw [spelled] at fits
    have inside : c ∈ digits := (List.isPrefixOf_iff_prefix.mp fits).subset (List.mem_cons_self ..)
    exact isDigit_ne (each c inside) letter rfl
  rw [readBare, noWord]
  exact readNumber_long each front long

/-- An integer with more digits than may be read is refused as such, not for its form. -/
theorem parse_long (each : ∀ c ∈ digits, c.isDigit = true) (front : digits.head? ≠ some '0')
    (long : Number.digitLimit < digits.length) :
    parse (String.ofList digits) = .error (.digits (.read digits.length)) := by
  cases digits with
  | nil => exact absurd long (Nat.not_lt_zero _)
  | cons c rest =>
    have digit : c.isDigit = true := each c (List.mem_cons_self ..)
    have bare : isSpace c = false := by
      simp only [isSpace, Bool.or_eq_false_iff, decide_eq_false_iff_not]
      exact ⟨⟨⟨isDigit_ne digit rfl, isDigit_ne digit rfl⟩, isDigit_ne digit rfl⟩,
        isDigit_ne digit rfl⟩
    have start : (Cursor.mk 0 (c :: rest)).skip = ⟨0, c :: rest⟩ := by
      simp [Cursor.skip, Cursor.advance, bare]
    have value (fuel : Nat) : readValue Number.digitLimit (fuel + 1) ⟨0, c :: rest⟩ =
        .error (.digits (.read (c :: rest).length)) := by
      unfold readValue
      split
      case h_4 => exact readBare_long each front long
      -- a digit opens no string, mapping or list
      all_goals
        rename_i opening
        exact absurd (List.cons.inj opening).1 (isDigit_ne digit rfl)
    rw [parse, parseWithin, String.toList_ofList]
    unfold readText
    split
    · rename_i marked
      exact absurd (List.cons.inj marked).1 (isDigit_ne digit rfl)
    · rw [start, value]
      rfl

end Long

end RailSpec.Json
