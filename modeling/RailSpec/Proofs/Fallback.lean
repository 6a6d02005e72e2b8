import RailSpec.Fallback
import RailSpec.Proofs.Json
import RailSpec.Proofs.Result
import RailSpec.Proofs.Text.Utf8

/-!
What a run of the fallback parser leaves. Either there is no report, and nothing but one error and
one warning comes of the run, or there is one, and all of it is kept beside the warning that the
fallback was used and the error for a failed exit. So a run without errors is one that went well.
-/

namespace RailSpec

namespace Schema

theorem messagesEach_eq (entries : List Value) :
    messagesEach entries = entries.mapM Value.message := by
  induction entries with
  | nil => rfl
  | cons entry rest ih => rw [messagesEach, ih, List.mapM_cons]

theorem messagesEach_returns {entries : List Value}
    (writable : ∀ entry ∈ entries, entry.IsWritable) : ∃ texts, messagesEach entries = .ok texts := by
  rw [messagesEach_eq, mapM_ok_iff]
  exact fun entry member => Value.message_returns (writable entry member)

theorem payloadList_writable {fields : Fields} (writable : (Value.mapping fields).IsWritable)
    (name : String) : ∀ item ∈ payloadList fields name, item.IsWritable := by
  intro item member
  unfold payloadList at member
  cases found : Fields.value? fields name with
  | none =>
    rw [found] at member
    cases member
  | some value =>
    rw [found] at member
    have held : value.IsWritable := writable.part (Fields.held_of_value? found)
    cases value with
    | list items => exact held.part member
    | _ => cases member

/-- A schema of which nothing could be read: one error and one warning say why. -/
structure HasFailed (schema : Schema) : Prop where
  tables : schema.tables = []
  enums : schema.enums = []
  errors : schema.diagnostics.errors.length = 1
  warnings : schema.diagnostics.warnings.length = 1

theorem HasFailed.errors_ne_nil {schema : Schema} (failed : schema.HasFailed) :
    schema.diagnostics.errors ≠ [] := by
  intro none
  have one := failed.errors
  rw [none] at one
  cases one

theorem failed_hasFailed (error warning : String) : (failed [error] [warning]).HasFailed :=
  ⟨rfl, rfl, rfl, rfl⟩

end Schema

namespace Fallback

open Number (digitLimit)

variable {fallback : Fallback} {outcome : Outcome} {fields : Fields} {status : Int}
  {schema : Schema}

namespace Outcome

/-- A program that ran through and printed a text, blanks at its ends aside. -/
inductive Prints : Outcome → String → Int → Prop where
  | finished {output noise : ByteArray} {status : Int} {text beside : String}
    (decoded : Text.Utf8.decode output = .ok text) (aside : Text.Utf8.decode noise = .ok beside) :
    Prints (.finished output status noise)
      (Text.strip (String.ofList (Text.unifyLineEnds text.toList))) status

/-- A program that printed a JSON object, or nothing in the place of an empty one. -/
inductive Reports : Outcome → Fields → Int → Prop where
  | nothing {outcome : Outcome} {status : Int} (printed : outcome.Prints "" status) :
    Reports outcome [] status
  | object {outcome : Outcome} {text : String} {fields : Fields} {status : Int}
    (printed : outcome.Prints text status) (read : Json.parse text = .ok (.mapping fields)) :
    Reports outcome fields status

/-- A run that leaves no report: the program did not run through, wrote bytes that are no UTF-8, or
printed something that is no JSON or no object. -/
inductive Fails : Outcome → Prop where
  | timedOut (limit : Float) : Fails (.timedOut limit)
  | notStarted (fault : Disk.Fault) : Fails (.notStarted fault)
  | badOutput {output noise : ByteArray} {status : Int} {fault : Text.Utf8.Fault}
    (refused : Text.Utf8.decode output = .error fault) : Fails (.finished output status noise)
  | badNoise {output noise : ByteArray} {status : Int} {fault : Text.Utf8.Fault}
    (refused : Text.Utf8.decode noise = .error fault) : Fails (.finished output status noise)
  | noJson {outcome : Outcome} {text : String} {status : Int} {what : Json.Complaint}
    {line column position : Nat} (printed : outcome.Prints text status) (filled : text ≠ "")
    (refused : Json.parse text = .error (.complaint what line column position)) : Fails outcome
  | noObject {outcome : Outcome} {text : String} {status : Int} {value : Value}
    (printed : outcome.Prints text status) (read : Json.parse text = .ok value)
    (other : ∀ fields, value ≠ .mapping fields) : Fails outcome

theorem prints_encoded (text : String) (status : Int) :
    (Outcome.finished (Text.Utf8.encode text) status).Prints
      (Text.strip (String.ofList (Text.unifyLineEnds text.toList))) status :=
  .finished (Text.Utf8.decode_encode text) (Text.Utf8.decode_encode "")

theorem Prints.status_eq {output noise : ByteArray} {text : String} {other : Int}
    (printed : (Outcome.finished output status noise).Prints text other) : other = status := by
  cases printed
  rfl

theorem Reports.status_eq {output noise : ByteArray} {other : Int}
    (reports : (Outcome.finished output status noise).Reports fields other) : other = status := by
  cases reports with
  | nothing printed => exact printed.status_eq
  | object printed _ => exact printed.status_eq

end Outcome

/-! What is made of a text, by what the reader of JSON says to it. -/

section Outputs

variable (fallback : Fallback) {output : String}

theorem schemaOfOutput_object (read : Json.parse (reportText output) = .ok (.mapping fields)) :
    fallback.schemaOfOutput output status = fallback.schemaOfReport fields status := by
  delta schemaOfOutput
  rw [read]

theorem schemaOfOutput_other {value : Value} (read : Json.parse (reportText output) = .ok value)
    (other : ∀ fields, value ≠ .mapping fields) :
    fallback.schemaOfOutput output status =
      .ok (Schema.failed [kindMessage value.kind] [fallback.outputWarning]) := by
  delta schemaOfOutput
  rw [read]
  cases value with
  | mapping fields => exact absurd rfl (other fields)
  | _ => rfl

theorem schemaOfOutput_complaint {what : Json.Complaint} {line column position : Nat}
    (refused : Json.parse (reportText output) = .error (.complaint what line column position)) :
    fallback.schemaOfOutput output status =
      .ok (Schema.failed [(Json.Fault.complaint what line column position).message]
        [fallback.outputWarning]) := by
  delta schemaOfOutput
  rw [refused]

theorem schemaOfOutput_digits {fault : Number.DigitFault}
    (refused : Json.parse (reportText output) = .error (.digits fault)) :
    fallback.schemaOfOutput output status = .error fault := by
  delta schemaOfOutput
  rw [refused]

end Outputs

section Runs

variable (fallback : Fallback)

theorem parse_nothing : Json.parse "" = .error (.complaint .value 1 1 0) :=
  rfl

theorem parse_noFields : Json.parse "{}" = .ok (.mapping []) :=
  rfl

/-- A report is read from what was printed, an empty one if nothing was. -/
theorem schemaOfRun_prints {text : String} (printed : outcome.Prints text status) :
    ∃ output, fallback.schemaOfRun outcome = fallback.schemaOfOutput output status ∧
      reportText output = if text = "" then "{}" else text := by
  cases printed with
  | @finished output noise status text beside decoded aside =>
    exact ⟨text, by rw [schemaOfRun, decoded, aside], rfl⟩

theorem schemaOfRun_filled {text : String} (printed : outcome.Prints text status)
    (filled : text ≠ "") : ∃ output,
      fallback.schemaOfRun outcome = fallback.schemaOfOutput output status ∧
        reportText output = text := by
  obtain ⟨output, run, shown⟩ := schemaOfRun_prints fallback printed
  exact ⟨output, run, by rw [shown, if_neg filled]⟩

theorem filled_of_parse {text : String} {value : Value} (read : Json.parse text = .ok value) :
    text ≠ "" := by
  rintro rfl
  cases read.symm.trans parse_nothing

/-- A run with a report gives the schema of the report. -/
theorem schemaOfRun_reports (reports : outcome.Reports fields status) :
    fallback.schemaOfRun outcome = fallback.schemaOfReport fields status := by
  cases reports with
  | nothing printed =>
    obtain ⟨output, run, shown⟩ := schemaOfRun_prints fallback printed
    rw [if_pos rfl] at shown
    rw [run, schemaOfOutput_object fallback (by rw [shown, parse_noFields])]
  | object printed read =>
    obtain ⟨output, run, shown⟩ := schemaOfRun_filled fallback printed (filled_of_parse read)
    rw [run, schemaOfOutput_object fallback (by rw [shown, read])]

/-- A run without a report gives one error and one warning. -/
theorem schemaOfRun_fails (fails : outcome.Fails) :
    ∃ schema, fallback.schemaOfRun outcome = .ok schema ∧ schema.HasFailed := by
  cases fails with
  | timedOut limit => exact ⟨_, rfl, Schema.failed_hasFailed ..⟩
  | notStarted fault => exact ⟨_, rfl, Schema.failed_hasFailed ..⟩
  | badOutput refused => exact ⟨_, by rw [schemaOfRun, refused], Schema.failed_hasFailed ..⟩
  | @badNoise output noise status fault refused =>
    cases decoded : Text.Utf8.decode output with
    | error other => exact ⟨_, by rw [schemaOfRun, decoded], Schema.failed_hasFailed ..⟩
    | ok text => exact ⟨_, by rw [schemaOfRun, decoded, refused], Schema.failed_hasFailed ..⟩
  | noJson printed filled refused =>
    obtain ⟨output, run, shown⟩ := schemaOfRun_filled fallback printed filled
    rw [← shown] at refused
    exact ⟨_, by rw [run, schemaOfOutput_complaint fallback refused], Schema.failed_hasFailed ..⟩
  | noObject printed read other =>
    obtain ⟨output, run, shown⟩ := schemaOfRun_filled fallback printed (filled_of_parse read)
    rw [← shown] at read
    exact ⟨_, by rw [run, schemaOfOutput_other fallback read other], Schema.failed_hasFailed ..⟩

theorem schemaOfRun_digits {text : String} {fault : Number.DigitFault}
    (printed : outcome.Prints text status) (refused : Json.parse text = .error (.digits fault)) :
    fallback.schemaOfRun outcome = .error fault := by
  have filled : text ≠ "" := by
    rintro rfl
    cases refused.symm.trans parse_nothing
  obtain ⟨output, run, shown⟩ := schemaOfRun_filled fallback printed filled
  rw [run, schemaOfOutput_digits fallback (by rw [shown, refused])]

/-- A run leaves no report, or leaves one, or printed an integer that is too long to be read. -/
theorem Outcome.cases (outcome : Outcome) :
    outcome.Fails ∨
    (∃ fields status, outcome.Reports fields status ∧ (Value.mapping fields).IsWritable) ∨
    ∃ text status count, outcome.Prints text status ∧ Json.HasDigits text.toList count ∧
      digitLimit < count ∧ Json.parse text = .error (.digits (.read count)) := by
  cases outcome with
  | timedOut limit => exact .inl (.timedOut limit)
  | notStarted fault => exact .inl (.notStarted fault)
  | finished output status noise =>
    cases decoded : Text.Utf8.decode output with
    | error fault => exact .inl (.badOutput decoded)
    | ok printed =>
      cases aside : Text.Utf8.decode noise with
      | error fault => exact .inl (.badNoise aside)
      | ok beside =>
        have printed : (Outcome.finished output status noise).Prints _ status :=
          .finished decoded aside
        generalize Text.strip _ = text at printed
        by_cases empty : text = ""
        · subst empty
          have writable : (Value.mapping []).IsWritable :=
            Value.isWritable_mapping (List.forall_mem_nil _)
          exact .inr (.inl ⟨[], status, .nothing printed, writable⟩)
        · rcases Json.parse_cases text with
            ⟨value, read, writable⟩ | ⟨_, _, _, _, refused⟩ | ⟨count, refused, long, digits⟩
          · by_cases object : ∃ fields, value = .mapping fields
            · obtain ⟨fields, rfl⟩ := object
              exact .inr (.inl ⟨fields, status, .object printed read, writable⟩)
            · exact .inl (.noObject printed read fun fields same => object ⟨fields, same⟩)
          · exact .inl (.noJson printed empty refused)
          · exact .inr (.inr ⟨text, status, count, printed, digits, long, refused⟩)

end Runs

section Reports

variable (fallback : Fallback)

/-- What a schema says that was made of a report: the tables and enums of the report, its warnings
with the one for the use of the fallback behind them, and its errors with one for a failed exit. -/
structure IsReport (fields : Fields) (status : Int) (schema : Schema) : Prop where
  tables : schema.tables = Schema.decodeTables ((Fields.value? fields "tables").getD .null)
  enums : schema.enums = Schema.decodeEnums ((Fields.value? fields "enums").getD .null)
  warnings : ∃ texts, (Schema.payloadList fields "warnings").mapM Value.message = .ok texts ∧
    schema.diagnostics.warnings = texts ++ [fallback.usageWarning]
  errors : ∃ texts, (Schema.payloadList fields "errors").mapM Value.message = .ok texts ∧
    schema.diagnostics.errors = texts ++ if status = 0 then [] else [statusMessage status]

theorem schemaOfReport_returns (status : Int) (writable : (Value.mapping fields).IsWritable) :
    ∃ schema, fallback.schemaOfReport fields status = .ok schema := by
  obtain ⟨warnings, warned⟩ :=
    Schema.messagesEach_returns (Schema.payloadList_writable writable "warnings")
  obtain ⟨errors, failed⟩ :=
    Schema.messagesEach_returns (Schema.payloadList_writable writable "errors")
  exact ⟨_, by rw [schemaOfReport, warned, failed]; rfl⟩

theorem schemaOfReport_isReport (done : fallback.schemaOfReport fields status = .ok schema) :
    fallback.IsReport fields status schema := by
  obtain ⟨warnings, warned, done⟩ := bind_ok done
  obtain ⟨errors, failed, done⟩ := bind_ok done
  rw [Schema.messagesEach_eq] at warned failed
  cases done
  exact ⟨rfl, rfl, ⟨warnings, warned, rfl⟩, ⟨errors, failed, rfl⟩⟩

variable {fallback}

/-- No errors are left of a report just if it had none and the exit went well. -/
theorem IsReport.errors_eq_nil_iff (report : fallback.IsReport fields status schema) :
    schema.diagnostics.errors = [] ↔ status = 0 ∧ Schema.payloadList fields "errors" = [] := by
  obtain ⟨texts, written, errors⟩ := report.errors
  rw [errors, List.append_eq_nil_iff]
  constructor
  · rintro ⟨rfl, quiet⟩
    refine ⟨Decidable.by_contra fun failed => ?_, ?_⟩
    · rw [if_neg failed] at quiet
      cases quiet
    · cases entries : Schema.payloadList fields "errors" with
      | nil => rfl
      | cons entry rest =>
        rw [entries, List.mapM_cons] at written
        obtain ⟨text, first, more⟩ := bind_ok written
        obtain ⟨others, later, same⟩ := bind_ok more
        cases same
  · rintro ⟨rfl, none⟩
    rw [none] at written
    cases written
    exact ⟨rfl, if_pos rfl⟩

end Reports

/-- A program that prints an integer with too many digits leaves no schema, whatever its status. -/
theorem schemaOfRun_long (fallback : Fallback) {digits : List Char} (status : Int)
    (each : ∀ c ∈ digits, c.isDigit = true) (front : digits.head? ≠ some '0')
    (long : digitLimit < digits.length) :
    fallback.schemaOfRun (.finished (Text.Utf8.encode (String.ofList digits)) status) =
      .error (.read digits.length) := by
  have returns (c : Char) (member : c ∈ digits) : c ≠ '\r' := Json.isDigit_ne (each c member) rfl
  have blanks (c : Char) (member : c ∈ digits) : Text.isBlank c = false :=
    Text.isBlank_digit (each c member)
  have printed := Outcome.prints_encoded (String.ofList digits) status
  rw [String.toList_ofList, Text.unifyLineEnds_none returns, Text.strip, String.toList_ofList,
    Text.trimBy_none blanks] at printed
  exact schemaOfRun_digits fallback printed (Json.parse_long each front long)

section Complete

variable (done : fallback.schemaOfRun outcome = .ok schema)
include done

theorem schemaOfRun_hasFailed (fails : outcome.Fails) : schema.HasFailed := by
  obtain ⟨other, given, failed⟩ := schemaOfRun_fails fallback fails
  cases done.symm.trans given
  exact failed

theorem schemaOfRun_isReport (reports : outcome.Reports fields status) :
    fallback.IsReport fields status schema := by
  rw [schemaOfRun_reports fallback reports] at done
  exact schemaOfReport_isReport fallback done

theorem fails_or_reports : outcome.Fails ∨ ∃ fields status, outcome.Reports fields status := by
  rcases outcome.cases with
    fails | ⟨fields, status, reports, _⟩ | ⟨text, status, count, printed, _, _, refused⟩
  · exact .inl fails
  · exact .inr ⟨fields, status, reports⟩
  · cases done.symm.trans (schemaOfRun_digits fallback printed refused)

end Complete

end Fallback

end RailSpec
