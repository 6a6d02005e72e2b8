import RailSpec.Proofs.Text.LineFeed
import RailSpec.Proofs.Value.Writable

/-!
Line feeds of written values. A shown value is one line, whatever is in it. A spelled value has the
line feeds of the texts and names in it, except for those that a tuple shows.
-/

namespace RailSpec

namespace Number

theorem zeroDigits_single (count : Int) : '\n' ∉ zeroDigits count := by
  simp [zeroDigits, List.mem_replicate]

theorem exponentText_single (exponent : Int) : '\n' ∉ exponentText exponent := by
  have digits := Text.toDigits_single 10 exponent.natAbs (by decide) (by decide)
  have sign : '\n' ≠ if exponent < 0 then '-' else '+' := by
    split <;> decide
  simp [exponentText, zeroDigits_single, digits, sign]

theorem Decimal.text_single {decimal : Decimal} (plain : '\n' ∉ decimal.digits)
    (style : Notation) : '\n' ∉ decimal.text style := by
  have before : '\n' ∉ decimal.digits.take decimal.point.toNat :=
    fun member => plain (List.mem_of_mem_take member)
  have behind : '\n' ∉ decimal.digits.drop decimal.point.toNat :=
    fun member => plain (List.mem_of_mem_drop member)
  have places : '\n' ∉ (if style.keepsPlace then ['.', '0'] else []) := by
    split <;> decide
  unfold Decimal.text
  split
  · by_cases small : decimal.point ≤ 0
    · simp [small, zeroDigits_single, plain]
    · by_cases whole : (decimal.digits.length : Int) ≤ decimal.point
      · simp [small, whole, zeroDigits_single, plain, places]
      · simp [small, whole, before, behind]
  · split
    · rename_i digit alone
      simpa [alone, exponentText_single] using plain
    · rename_i digit rest _ several
      simpa [several, exponentText_single] using plain
    · exact List.not_mem_nil

theorem Decimal.ofUnits_single (units : Nat) (power : Int) :
    '\n' ∉ (Decimal.ofUnits units power).digits := by
  intro member
  have kept := List.mem_reverse.mp member
  have digit := List.mem_reverse.mp ((List.dropWhile_suffix _).subset kept)
  exact Text.toDigits_single 10 units (by decide) (by decide) digit

theorem shortestFrom_single {ratio : Ratio} {bits : Nat} {places : Int} (count more : Nat) :
    '\n' ∉ (shortestFrom ratio bits places count more).digits := by
  induction more generalizing count with
  | zero => exact List.not_mem_nil
  | succ more ih =>
    rw [shortestFrom]
    split
    · rename_i units _
      exact Decimal.ofUnits_single units _
    · exact ih (count + 1)

theorem lineFeeds_shownFloat (x : Float) : Text.lineFeeds (shownFloat x) = 0 := by
  rw [Text.lineFeeds_eq_zero_iff, shownFloat, floatText]
  split
  · decide
  · split <;> decide
  · rename_i negative significand exponent _
    have body : '\n' ∉ (if significand = 0 then
        (if shownNumber.keepsPlace then ['0', '.', '0'] else ['0'])
        else (shortest (Binary64.magnitude significand exponent)).text shownNumber) := by
      split
      · decide
      · exact Decimal.text_single (shortestFrom_single 1 17) shownNumber
    cases negative with
    | false => simpa using body
    | true => simpa using body

theorem lineFeeds_writeInteger {number : Int} {text : String}
    (done : writeInteger number = .ok text) : Text.lineFeeds text = 0 := by
  have digits (value : Nat) : '\n' ∉ value.repr.toList := by
    simpa [Nat.repr] using Text.toDigits_single 10 value (by decide) (by decide)
  unfold writeInteger at done
  split at done
  · cases done
    rw [Text.lineFeeds_eq_zero_iff]
    cases number with
    | ofNat value => exact digits value
    | negSucc value =>
      have signed : toString (Int.negSucc value) = "-" ++ (value + 1).repr := rfl
      rw [signed, String.toList_append, List.mem_append]
      exact not_or.mpr ⟨by decide, digits (value + 1)⟩
  · cases done

end Number

namespace Value

mutual

/-- The line feeds that a value spells. A tuple only shows its items, which escapes theirs. -/
def lineFeeds : Value → Nat
  | .text characters => Text.lineFeeds characters
  | .list items => lineFeedsEach items
  | .mapping fields => lineFeedsFields fields
  | _ => 0

def lineFeedsEach : List Value → Nat
  | [] => 0
  | item :: rest => lineFeeds item + lineFeedsEach rest

def lineFeedsFields : List (String × Value) → Nat
  | [] => 0
  | (name, value) :: rest => Text.lineFeeds name + lineFeeds value + lineFeedsFields rest

end

theorem lineFeedsEach_eq (items : List Value) :
    lineFeedsEach items = (items.map lineFeeds).sum := by
  induction items with
  | nil => rfl
  | cons item rest ih => rw [lineFeedsEach, ih, List.map_cons, List.sum_cons]

theorem lineFeedsFields_eq (fields : Fields) :
    lineFeedsFields fields =
      (fields.map fun field => Text.lineFeeds field.1 + lineFeeds field.2).sum := by
  induction fields with
  | nil => rfl
  | cons field rest ih => rw [lineFeedsFields, ih, List.map_cons, List.sum_cons]

theorem lineFeeds_bracketed {opening closing : String} (plain : Text.lineFeeds opening = 0)
    (alsoPlain : Text.lineFeeds closing = 0) (items : List String) :
    Text.lineFeeds (bracketed opening closing items) = (items.map Text.lineFeeds).sum := by
  have separator : Text.lineFeeds ", " = 0 := rfl
  simp [bracketed, plain, alsoPlain, Text.lineFeeds_joined separator]

section Written

variable {value : Value} {items : List Value} {fields : Fields} {text : String}
  {texts : List String}

/-- Texts that are written one by one have the line feeds of each. -/
theorem lineFeeds_mapM {α : Type} {items : List α} {write : α → Except Number.DigitFault String}
    (feeds : α → Nat)
    (each : ∀ item ∈ items, ∀ text, write item = .ok text → Text.lineFeeds text = feeds item)
    (done : items.mapM write = .ok texts) :
    (texts.map Text.lineFeeds).sum = (items.map feeds).sum := by
  induction items generalizing texts with
  | nil =>
    cases done
    rfl
  | cons item rest ih =>
    obtain ⟨here, later⟩ := List.forall_mem_cons.mp each
    rw [List.mapM_cons] at done
    obtain ⟨text, written, more⟩ := bind_ok done
    obtain ⟨others, writtenBehind, finished⟩ := bind_ok more
    cases finished
    rw [List.map_cons, List.sum_cons, List.map_cons, List.sum_cons, here text written,
      ih later writtenBehind]

/-- So have fields: those of each name, as it is written, and of each value. -/
theorem lineFeeds_fields {write : Value → Except Number.DigitFault String} (named : String → String)
    (feeds : Value → Nat)
    (each : ∀ field ∈ fields, ∀ text, write field.2 = .ok text →
      Text.lineFeeds text = feeds field.2)
    (done : (fields.mapM fun field => (write field.2).map fun text => named field.1 ++ ": " ++ text) =
      .ok texts) :
    (texts.map Text.lineFeeds).sum =
      (fields.map fun field => Text.lineFeeds (named field.1) + feeds field.2).sum := by
  -- A field is one item of the list as well, so this is the same law with a longer count.
  apply lineFeeds_mapM (fun field => Text.lineFeeds (named field.1) + feeds field.2) _ done
  intro field member line written
  obtain ⟨text, here, rfl⟩ := map_ok written
  have colon : Text.lineFeeds ": " = 0 := rfl
  rw [Text.lineFeeds_append, Text.lineFeeds_append, colon, each field member text here, Nat.add_zero]

theorem lineFeeds_shownEach
    (each : ∀ item ∈ items, ∀ text, item.shown = .ok text → Text.lineFeeds text = 0)
    (done : shownEach items = .ok texts) : (texts.map Text.lineFeeds).sum = 0 := by
  rw [shownEach_eq] at done
  rw [lineFeeds_mapM (fun _ => 0) each done]
  simp

/-- Whatever is shown is one line. -/
theorem lineFeeds_shown (done : value.shown = .ok text) : Text.lineFeeds text = 0 := by
  induction value using byParts generalizing text with
  | step value ih =>
    cases value with
    | bool truth =>
      cases truth <;> cases done <;> rfl
    | int number =>
      rw [shown] at done
      exact Number.lineFeeds_writeInteger done
    | float number =>
      rw [shown] at done
      rw [← Except.ok.inj done]
      exact Number.lineFeeds_shownFloat number
    | text characters =>
      cases done
      exact Text.lineFeeds_shown characters
    | list items =>
      obtain ⟨texts, found, rfl⟩ := map_ok done
      rw [lineFeeds_bracketed rfl rfl]
      exact lineFeeds_shownEach (fun item member text => ih item member) found
    | tuple items =>
      rcases items with _ | ⟨item, _ | ⟨second, rest⟩⟩
      · cases done
        rfl
      · obtain ⟨inner, found, rfl⟩ := map_ok done
        have opening : Text.lineFeeds "(" = 0 := rfl
        have closing : Text.lineFeeds ",)" = 0 := rfl
        simp [opening, closing, ih item (List.mem_singleton.mpr rfl) found]
      · rw [shown] at done
        · obtain ⟨texts, found, rfl⟩ := map_ok done
          rw [lineFeeds_bracketed rfl rfl]
          exact lineFeeds_shownEach (fun item member text => ih item member) found
        · simp
    | mapping fields =>
      obtain ⟨texts, found, rfl⟩ := map_ok done
      have each (field : String × Value) (member : field ∈ fields) (text : String) :
          field.2.shown = .ok text → Text.lineFeeds text = 0 :=
        ih field.2 (List.mem_map_of_mem member)
      rw [shownFields_eq] at found
      rw [lineFeeds_bracketed rfl rfl, lineFeeds_fields Text.shown (fun _ => 0) each found]
      simp [Text.lineFeeds_shown]
    | null | deferred _ | object _ =>
      rw [shown] at done
      rw [← Except.ok.inj done]
      decide

/-- Whatever is spelled has the line feeds of the texts in it. -/
theorem lineFeeds_spelled (done : value.spelled = .ok text) :
    Text.lineFeeds text = value.lineFeeds := by
  induction value using byParts generalizing text with
  | step value ih =>
    cases value with
    | null =>
      cases done
      rfl
    | bool truth =>
      cases truth <;> cases done <;> rfl
    | text characters =>
      cases done
      rfl
    | list items =>
      obtain ⟨texts, found, rfl⟩ := map_ok done
      have comma : Text.lineFeeds "," = 0 := rfl
      rw [spelledEach_eq] at found
      rw [Text.lineFeeds_joined comma, lineFeeds, lineFeedsEach_eq]
      exact lineFeeds_mapM lineFeeds (fun item member text => ih item member) found
    | mapping fields =>
      obtain ⟨texts, found, rfl⟩ := map_ok done
      have each (field : String × Value) (member : field ∈ fields) (text : String) :
          field.2.spelled = .ok text → Text.lineFeeds text = field.2.lineFeeds :=
        ih field.2 (List.mem_map_of_mem member)
      rw [spelledFields_eq] at found
      rw [lineFeeds_bracketed rfl rfl, lineFeeds, lineFeedsFields_eq]
      exact lineFeeds_fields (fun name => name) lineFeeds each found
    | int _ | float _ | tuple _ | deferred _ | object _ =>
      simp only [spelled] at done
      exact lineFeeds_shown done

end Written

end Value

end RailSpec
