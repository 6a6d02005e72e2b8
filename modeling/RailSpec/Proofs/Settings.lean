import RailSpec.Proofs.Result
import RailSpec.Proofs.Text.Blank
import RailSpec.Settings

/-!
Settings that stay valid. Whatever is assigned to them, the settings that come of it keep within the
bounds of every field, and their own fields read back as the same settings.
-/

namespace RailSpec

namespace Record

variable {α β : Type}

theorem both_ok {first : Checked α} {second : Checked β} {pair : α × β}
    (done : both first second = .ok pair) : first = .ok pair.1 ∧ second = .ok pair.2 := by
  cases first with
  | error faults => cases second <;> cases done
  | ok a =>
    cases second with
    | error faults => cases done
    | ok b =>
      cases done
      exact ⟨rfl, rfl⟩

theorem under_ok {step : Step} {checked : Checked α} {value : α}
    (done : under step checked = .ok value) : checked = .ok value :=
  mapError_ok done

theorem readEach_texts (words : List String) (position : Nat) :
    readEach readText position (words.map Value.text) = .ok words := by
  induction words generalizing position with
  | nil => rfl
  | cons word rest ih =>
    rw [List.map_cons, readEach, ih]
    rfl

/-- What is read optionally is null, or read from a value that is not. -/
theorem readOptional_ok {read : Value → Checked α} {value : Value} {result : Option α}
    (done : readOptional read value = .ok result) :
    result = none ∨ ∃ held, result = some held ∧ read value = .ok held := by
  unfold readOptional at done
  split at done
  · cases done
    exact .inl rfl
  · obtain ⟨held, found, rfl⟩ := map_ok done
    exact .inr ⟨held, rfl, found⟩

end Record

/-- A number above another is a number. -/
theorem not_nan_of_lt {bound x : Float} (above : bound < x) : x.isNaN = false := by
  have above : Float.Model.UnpackedFloat.lt bound.toModel.unpack x.toModel.unpack = true :=
    of_decide_eq_true above
  change x.toModel.unpack.isNaN = false
  cases amount : x.toModel.unpack with
  | notANumber =>
    rw [amount] at above
    generalize bound.toModel.unpack = low at above
    cases low <;> exact absurd above Bool.false_ne_true
  | infinity => rfl
  | zero => rfl
  | finite => rfl

namespace Settings

open Record

/-- Settings within the bounds of every field: a namespace without blanks at its ends and with
something in it, a command with a program to run, a time limit that is a number above zero, and an
extension. -/
structure IsValid (settings : Settings) : Prop where
  named : ∀ name ∈ settings.namespaceName, name ≠ "" ∧ Text.strip name = name
  runs : ∀ words ∈ settings.command, words ≠ []
  timed : ∀ limit ∈ settings.timeLimit, limit > 0 ∧ limit.isNaN = false
  extended : settings.fileExtension ≠ ""

variable {settings initial : Settings} {entries : Entries} {value : Value} {name : String}

section Fields

theorem trimmedName_named {given : Option String} :
    ∀ name ∈ trimmedName given, name ≠ "" ∧ Text.strip name = name := by
  intro name member
  obtain ⟨trimmed, filled⟩ := Option.filter_eq_some_iff.mp member
  obtain ⟨text, rfl, rfl⟩ := Option.map_eq_some_iff.mp trimmed
  exact ⟨of_decide_eq_true filled, Text.strip_strip text⟩

/-- A namespace is trimmed just if it has nothing to trim. -/
theorem trimmedName_same {given : Option String}
    (named : ∀ name ∈ given, name ≠ "" ∧ Text.strip name = name) :
    trimmedName given = given := by
  cases given with
  | none => rfl
  | some name =>
    obtain ⟨filled, trimmed⟩ := named name rfl
    rw [trimmedName, Option.map_some, trimmed, Option.filter_some, if_pos (decide_eq_true filled)]

theorem trimmedName_blank (blank : Text.isBlankText name = true) :
    trimmedName (some name) = none := by
  rw [trimmedName, Option.map_some, Text.strip_eq_empty_iff.mpr blank]
  rfl

theorem readNamespace_named {result : Option String} (done : readNamespace value = .ok result) :
    ∀ name ∈ result, name ≠ "" ∧ Text.strip name = name := by
  obtain ⟨given, -, rfl⟩ := map_ok done
  exact trimmedName_named

theorem readCommand_runs {result : Option (List String)} (done : readCommand value = .ok result) :
    ∀ words ∈ result, words ≠ [] := by
  obtain ⟨command, -, more⟩ := bind_ok done
  split at more
  · cases more
  · rename_i program
    cases more
    rintro words member rfl
    exact program member

theorem readTimeLimit_timed {result : Option Float} (done : readTimeLimit value = .ok result) :
    ∀ limit ∈ result, limit > 0 ∧ limit.isNaN = false := by
  rcases readOptional_ok done with rfl | ⟨limit, rfl, read⟩
  · intro limit member
    cases member
  · intro other member
    cases member
    obtain ⟨seconds, -, more⟩ := bind_ok read
    split at more
    · rename_i positive
      cases more
      exact ⟨positive, not_nan_of_lt positive⟩
    · cases more

theorem readFilledText_filled {result : String} (done : readFilledText value = .ok result) :
    result ≠ "" := by
  obtain ⟨text, -, more⟩ := bind_ok done
  split at more
  · cases more
  · rename_i filled
    cases more
    exact filled

theorem entryOr_ok {α : Type} {default result : α} {read : Value → Checked α}
    (done : entryOr entries name default read = .ok result) :
    result = default ∨ ∃ value, read value = .ok result := by
  unfold entryOr at done
  split at done
  · rename_i value given
    exact .inr ⟨value, under_ok done⟩
  · cases done
    exact .inl rfl

end Fields

/-- The settings of a mapping without entries. -/
theorem initial_valid : ({ } : Settings).IsValid where
  named := by
    intro name member
    cases member
  runs := by
    intro words member
    cases member
  timed := by
    intro limit member
    cases member
    exact ⟨by decide, by decide⟩
  extended := by decide

theorem ofEntries_valid (accepted : ofEntries entries = .ok settings) : settings.IsValid := by
  obtain ⟨⟨namespaceName, command, timeLimit, fileExtension, stray⟩, read, rfl⟩ :=
    map_ok accepted
  obtain ⟨named, read⟩ := both_ok read
  obtain ⟨runs, read⟩ := both_ok read
  obtain ⟨timed, read⟩ := both_ok read
  obtain ⟨extended, -⟩ := both_ok read
  constructor
  · rcases entryOr_ok named with rfl | ⟨value, read⟩
    · exact initial_valid.named
    · exact readNamespace_named read
  · rcases entryOr_ok runs with rfl | ⟨value, read⟩
    · exact initial_valid.runs
    · exact readCommand_runs read
  · rcases entryOr_ok timed with rfl | ⟨value, read⟩
    · exact initial_valid.timed
    · exact readTimeLimit_timed read
  · rcases entryOr_ok extended with rfl | ⟨value, read⟩
    · exact initial_valid.extended
    · exact readFilledText_filled read

theorem IsValid.assign {assigned : Settings} (valid : settings.IsValid)
    (accepted : settings.assign name value = .ok assigned) : assigned.IsValid := by
  unfold Settings.assign at accepted
  split_ifs at accepted
  · obtain ⟨read, found, rfl⟩ := map_ok accepted
    exact { valid with named := readNamespace_named (under_ok found) }
  · obtain ⟨read, found, rfl⟩ := map_ok accepted
    exact { valid with runs := readCommand_runs (under_ok found) }
  · obtain ⟨read, found, rfl⟩ := map_ok accepted
    exact { valid with timed := readTimeLimit_timed (under_ok found) }
  · obtain ⟨read, found, rfl⟩ := map_ok accepted
    exact { valid with extended := readFilledText_filled (under_ok found) }
  · cases accepted
    exact valid
  · cases accepted

/-- A run of assignments keeps settings valid, whichever of them are refused. -/
theorem IsValid.assignEach (valid : settings.IsValid) (assignments : List (String × Value)) :
    (settings.assignEach assignments).IsValid := by
  induction assignments generalizing settings with
  | nil => exact valid
  | cons assignment rest ih =>
    unfold Settings.assignEach
    split
    · rename_i assigned accepted
      exact ih (valid.assign accepted)
    · exact ih valid

/-! Reading the fields of settings again. -/

section Reread

/-- Entries for all four fields and no others are read field by field. -/
theorem ofEntries_fields {namespaceName command timeLimit fileExtension : Value}
    (named : readNamespace namespaceName = .ok settings.namespaceName)
    (runs : readCommand command = .ok settings.command)
    (timed : readTimeLimit timeLimit = .ok settings.timeLimit)
    (extended : readFilledText fileExtension = .ok settings.fileExtension) :
    ofEntries (entriesOf [("namespace", namespaceName), ("fallback_command", command),
      ("fallback_timeout", timeLimit), ("file_extension", fileExtension)]) = .ok settings := by
  simp only [ofEntries, entriesOf, List.map_cons, List.map_nil, entryOr, given?, Key.isText]
  simp [strayFaults, fieldNames, named, runs, timed, extended, under, both, Except.mapError, Except.map]

theorem readNamespace_text (name : String) :
    readNamespace (.text name) = .ok (trimmedName (some name)) :=
  rfl

namespace IsValid

theorem readNamespace_field (valid : settings.IsValid) :
    readNamespace ((settings.namespaceName.map Value.text).getD .null) =
      .ok settings.namespaceName := by
  have trimmed := trimmedName_same valid.named
  cases given : settings.namespaceName with
  | none => rfl
  | some name =>
    rw [given] at trimmed
    exact congrArg Except.ok trimmed

theorem readCommand_field (valid : settings.IsValid) :
    readCommand ((settings.command.map fun words => Value.list (words.map Value.text)).getD .null) =
      .ok settings.command := by
  cases given : settings.command with
  | none => rfl
  | some words =>
    have filled : some words ≠ some [] := fun same => valid.runs words given (Option.some.inj same)
    have read : readOptional (readList readText) (.list (words.map Value.text)) =
        .ok (some words) := by
      change (readEach readText 0 (words.map Value.text)).map some = _
      rw [readEach_texts]
      rfl
    rw [Option.map_some, Option.getD_some, readCommand, read]
    exact if_neg filled

theorem readTimeLimit_field (valid : settings.IsValid) :
    readTimeLimit ((settings.timeLimit.map Value.float).getD .null) = .ok settings.timeLimit := by
  cases given : settings.timeLimit with
  | none => rfl
  | some limit =>
    have positive := (valid.timed limit given).1
    change Except.map some (if limit > 0 then .ok limit else refuse .notPositive) = _
    rw [if_pos positive]
    rfl

theorem readFilledText_field (valid : settings.IsValid) :
    readFilledText (.text settings.fileExtension) = .ok settings.fileExtension :=
  if_neg valid.extended

/-- The fields of valid settings read back as those settings. -/
theorem ofValue_toFields (valid : settings.IsValid) :
    ofValue (.mapping settings.toFields) = .ok settings :=
  ofEntries_fields valid.readNamespace_field valid.readCommand_field valid.readTimeLimit_field
    valid.readFilledText_field

/-- Valid settings take any name for their namespace, and nothing else changes. -/
theorem withNamespace_eq (valid : settings.IsValid) (name : String) :
    settings.withNamespace name =
      .ok { settings with namespaceName := trimmedName (some name) } :=
  ofEntries_fields (readNamespace_text name) valid.readCommand_field valid.readTimeLimit_field
    valid.readFilledText_field

end IsValid

end Reread

/-- Settings that are read from a mapping, with any fields assigned afterwards, are valid. A refused
assignment leaves no trace in them, their own fields read back as the same settings, and another
namespace is never refused and changes nothing but the namespace. -/
theorem assignEach_rereads (accepted : ofEntries entries = .ok initial)
    (assignments : List (String × Value))
    (reached : initial.assignEach assignments = settings) :
    settings.IsValid ∧
      (∀ name value faults, settings.assign name value = .error faults →
        ∀ later, settings.assignEach ((name, value) :: later) = settings.assignEach later) ∧
      ofValue (.mapping settings.toFields) = .ok settings ∧
      ∀ name, settings.withNamespace name =
        .ok { settings with namespaceName := trimmedName (some name) } := by
  have valid : settings.IsValid := reached ▸ (ofEntries_valid accepted).assignEach assignments
  refine ⟨valid, ?_, valid.ofValue_toFields, valid.withNamespace_eq⟩
  intro name value faults refused later
  rw [assignEach, refused]

/-- Assignments of which the second, third and last are refused. -/
def edits : List (String × Value) := [
  ("namespace", .text "  My.App\n"), ("fallback_timeout", .float Number.notANumber),
  ("file_extension", .text ""), ("fallback_timeout", .text " 2.5 "),
  ("fallback_command", .list [.text "ruby", .text "-w"]), ("retries", .int 3)]

def edited : Settings := ⟨some "My.App", some ["ruby", "-w"], some 2.5, ".tsp"⟩

theorem assignEach_rereads_edited :
    ofEntries [(.text "namespace", .text " ")] = .ok { } ∧ assignEach { } edits = edited ∧
      edited.assign "retries" (.int 3) =
        .error [⟨[.field "retries"], .noField "retries"⟩] ∧
      edited.assignEach [("retries", .int 3)] = edited ∧
      ofValue (.mapping edited.toFields) = .ok edited := by
  have accepted : ofEntries [(.text "namespace", .text " ")] = .ok { } := by rfl
  have reached : assignEach { } edits = edited := by rfl
  have refused : edited.assign "retries" (.int 3) =
      .error [⟨[.field "retries"], .noField "retries"⟩] := by rfl
  obtain ⟨-, unchanged, rereads, -⟩ := assignEach_rereads accepted edits reached
  exact ⟨accepted, reached, refused, unchanged _ _ _ refused [], rereads⟩

end Settings
end RailSpec
