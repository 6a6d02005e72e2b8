import Mathlib.Data.List.Forall2
import RailSpec.Proofs.Disk.Change
import RailSpec.Proofs.Disk.Null
import RailSpec.Proofs.Report.Export

/-!
What becomes of each document of an export. Every document that a run gets to is written or refused,
in order, and only a null character in its path, or a path that leads out of the output directory,
ends the run before all are done.
-/

namespace RailSpec.Written

def record? : Written → Option FileRecord
  | .file record => some record
  | .refused _ => none

def message? : Written → Option String
  | .file _ => none
  | .refused message => some message

theorem length_record_message (outcomes : List Written) :
    (outcomes.filterMap record?).length + (outcomes.filterMap message?).length =
      outcomes.length := by
  induction outcomes with
  | nil => rfl
  | cons written rest ih =>
    cases written with
    | file record =>
      simp only [List.filterMap_cons, record?, message?, List.length_cons, ← ih]
      omega
    | refused message =>
      simp only [List.filterMap_cons, record?, message?, List.length_cons, ← ih]
      omega

end RailSpec.Written

namespace RailSpec.Destination

open Disk (Path Place Fault Writes)

variable {destination : Destination} {disk next after : Disk} {exported final : Exported}
  {file : SchemaFile} {document : TypeSpec.Document} {record : FileRecord} {written : Written}
  {escape : Escape} {lines : List Log.Line} {documents rest : List (SchemaFile × TypeSpec.Document)}

/-- What became of documents one after the other, up to one that ended the run. -/
def outcomes (destination : Destination) (disk : Disk) :
    List (SchemaFile × TypeSpec.Document) → List Written
  | [] => []
  | (file, document) :: rest =>
    match destination.writeDocument disk file document with
    | (_, .error _) => []
    | (next, .ok written) => written :: destination.outcomes next rest

/-- A document with a path that a system takes, below the output directory by its names. -/
structure Recordable (destination : Destination) (pair : SchemaFile × TypeSpec.Document) :
    Prop where
  clean : (destination.target pair.1.place pair.2).hasNull = false
  below : ((Path.ofPlace destination.output).below?
    (destination.target pair.1.place pair.2)).isSome = true

/-- An outcome that is one of a document: the record of its target, or a refusal to write there. -/
inductive Tells (destination : Destination) (file : SchemaFile) (document : TypeSpec.Document) :
    Written → Prop where
  | file (relative : Path)
    (below : (Path.ofPlace destination.output).below? (destination.target file.place document) =
      some relative) :
    Tells destination file document (.file ⟨relative.toString,
      (destination.target file.place document).toString,
      (Text.Utf8.encode document.content).size, Text.contentLines document.content, file.relative⟩)
  | refused (fault : Fault) :
    Tells destination file document
      (.refused (refusal (destination.target file.place document) file fault))

/-! One document. -/

/-- How the writing of a document ends, by how the writing of its file does. -/
inductive Step (destination : Destination) (disk : Disk) (file : SchemaFile)
    (document : TypeSpec.Document) (after : Disk) : Except Escape Written → Prop where
  | written (wrote : disk.writeText (destination.target file.place document) document.content
      destination.overwrite = (after, .ok (Text.Utf8.encode document.content).size)) :
    Step destination disk file document after ((destination.record
      (destination.target file.place document) file document
      (Text.Utf8.encode document.content).size).map .file)
  | nullByte (failed : disk.writeText (destination.target file.place document) document.content
      destination.overwrite = (after, .error .nullByte)) :
    Step destination disk file document after (.error (.file .nullByte))
  | refused (fault : Fault) (other : fault ≠ .nullByte)
    (failed : disk.writeText (destination.target file.place document) document.content
      destination.overwrite = (after, .error fault)) :
    Step destination disk file document after
      (.ok (.refused (refusal (destination.target file.place document) file fault)))

theorem writeDocument_step (destination : Destination) (disk : Disk) (file : SchemaFile)
    (document : TypeSpec.Document) : Step destination disk file document
      (destination.writeDocument disk file document).1
      (destination.writeDocument disk file document).2 := by
  have writes := Disk.write_writes disk (destination.target file.place document)
    (Text.Utf8.encode document.content) destination.overwrite
  unfold writeDocument
  dsimp only
  split
  · rename_i next bytes found
    rw [Disk.writeText] at found
    rw [found] at writes
    cases writes with
    | written => exact .written found
  · rename_i next found
    exact .nullByte found
  · rename_i next fault found other
    exact .refused fault (fun same => found same) other

theorem writeDocument_disk (destination : Destination) (disk : Disk) (file : SchemaFile)
    (document : TypeSpec.Document) : (destination.writeDocument disk file document).1 =
      (disk.write (destination.target file.place document) (Text.Utf8.encode document.content)
        destination.overwrite).1 := by
  unfold writeDocument
  dsimp only
  split <;> rename_i found <;> exact (congrArg Prod.fst found).symm

theorem writeDocument_marks (destination : Destination) (file : SchemaFile)
    (document : TypeSpec.Document) (clean : disk.MarksClean) :
    (destination.writeDocument disk file document).1.MarksClean := by
  have paved := Disk.makeDirectories_paved disk (destination.target file.place document).parent
  have ends := Disk.write_ends disk (destination.target file.place document)
    (Text.Utf8.encode document.content) destination.overwrite
  intro mark member
  rw [writeDocument_disk, ends.marks, paved.marks] at member
  exact clean mark member

theorem Step.tells {result : Except Escape Written}
    (step : Step destination disk file document after result) (done : result = .ok written) :
    Tells destination file document written := by
  cases step with
  | written wrote =>
    obtain ⟨made, recorded, rfl⟩ := map_ok done
    unfold Destination.record at recorded
    dsimp only at recorded
    split at recorded
    · rename_i relative below
      cases recorded
      exact .file relative below
    · cases recorded
  | nullByte => cases done
  | refused fault =>
    cases done
    exact .refused fault

theorem Recordable.absolute {pair : SchemaFile × TypeSpec.Document}
    (recordable : destination.Recordable pair) :
    (destination.target pair.1.place pair.2).isAbsolute = true := by
  obtain ⟨relative, below⟩ := Option.isSome_iff_exists.mp recordable.below
  unfold Path.below? at below
  split at below
  · rename_i inside
    simp only [Bool.and_eq_true, decide_eq_true_eq] at inside
    rw [Path.isAbsolute, ← inside.1]
    rfl
  · cases below

/-- A document that can be recorded does not end a run. -/
theorem Recordable.returns (marks : disk.MarksClean)
    (recordable : destination.Recordable (file, document)) :
    ∃ written, (destination.writeDocument disk file document).2 = .ok written := by
  have step := writeDocument_step destination disk file document
  revert step
  generalize (destination.writeDocument disk file document).1 = after
  generalize (destination.writeDocument disk file document).2 = result
  intro step
  cases step with
  | written wrote =>
    obtain ⟨relative, below⟩ := Option.isSome_iff_exists.mp recordable.below
    unfold Destination.record
    dsimp only
    rw [below]
    exact ⟨_, rfl⟩
  | nullByte failed =>
    have null := Disk.write_nullByte marks recordable.absolute failed
    rw [recordable.clean] at null
    cases null
  | refused fault => exact ⟨_, rfl⟩

/-! One document after the other. -/

theorem outcomes_cons (done : destination.writeDocument disk file document = (next, .ok written)) :
    destination.outcomes disk ((file, document) :: rest) =
      written :: destination.outcomes next rest := by
  rw [outcomes, done]

/-- A run that is through has an outcome of every document, and what it exported is all of them. -/
theorem writeDocuments_outcomes
    (done : destination.writeDocuments disk exported documents = (after, .ok (final, lines))) :
    List.Forall₂ (fun pair => Tells destination pair.1 pair.2) documents
        (destination.outcomes disk documents) ∧
      final.files = exported.files ++ (destination.outcomes disk documents).filterMap (·.record?) ∧
      final.errors =
        exported.errors ++ (destination.outcomes disk documents).filterMap (·.message?) := by
  induction documents generalizing disk exported lines with
  | nil =>
    cases done
    exact ⟨.nil, (List.append_nil _).symm, (List.append_nil _).symm⟩
  | cons pair rest ih =>
    obtain ⟨file, document⟩ := pair
    obtain ⟨next, written, more, here, there⟩ := writeDocuments_cons done
    obtain ⟨tells, files, errors⟩ := ih there
    have step := writeDocument_step destination disk file document
    rw [outcomes_cons here]
    refine ⟨.cons (step.tells (congrArg Prod.snd here)) tells, ?_, ?_⟩
    · rw [files]
      cases written <;> simp [Exported.add, Written.record?]
    · rw [errors]
      cases written <;> simp [Exported.add, Written.message?]

theorem exportAll_through {result : Exported × List Log.Line}
    (done : (destination.exportAll disk documents).2 = .ok result) : ∃ lines,
      destination.writeDocuments disk { } documents =
        ((destination.exportAll disk documents).1, .ok (result.1, lines)) := by
  unfold exportAll at done ⊢
  split at done
  · cases done
  · rename_i found
    cases done
    exact ⟨_, found⟩

/-- If no outcome is a refusal, each is the record of its document. -/
theorem records_of_sound {outcomes : List Written}
    (tells : List.Forall₂ (fun pair => Tells destination pair.1 pair.2) documents outcomes)
    (sound : outcomes.filterMap (·.message?) = []) :
    List.Forall₂ (fun pair record => Tells destination pair.1 pair.2 (.file record)) documents
      (outcomes.filterMap (·.record?)) := by
  induction tells with
  | nil => exact .nil
  | @cons pair written rest later told _ ih =>
    cases written with
    | file record => exact .cons told (ih sound)
    | refused message => cases sound

/-- Only a document that cannot be recorded ends a run before it is through. -/
theorem writeDocuments_ended (marks : disk.MarksClean)
    (ended : (destination.writeDocuments disk exported documents).2 = .error escape) :
    ∃ pair, documents[(destination.outcomes disk documents).length]? = some pair ∧
      ¬ destination.Recordable pair := by
  induction documents generalizing disk exported with
  | nil => cases ended
  | cons pair rest ih =>
    obtain ⟨file, document⟩ := pair
    have marks' := writeDocument_marks destination file document marks
    rw [writeDocuments] at ended
    split at ended
    · rename_i next trouble found
      rw [outcomes, found]
      refine ⟨(file, document), rfl, fun recordable => ?_⟩
      obtain ⟨written, done⟩ := recordable.returns marks
      rw [found] at done
      cases done
    · rename_i next written found
      rw [found] at marks'
      rw [outcomes_cons found]
      have ended : (destination.writeDocuments next (exported.add written) rest).2 =
          .error escape := by
        split at ended
        · rename_i next' escape' there
          rw [there]
          exact ended
        · cases ended
      exact ih marks' ended

end RailSpec.Destination

namespace RailSpec.Report

/-- A report that ends an export without errors has a file for every document. -/
theorem exportAll_records {report final : Report} {disk after : Disk} {output : Disk.Path}
    {overwrite : Bool} {exported : Exported} {lines : List Log.Line}
    (done : report.exportAll disk output overwrite = (after, .ok (exported, final, lines)))
    (sound : final.exportErrors = []) :
    List.Forall₂ (fun pair record => Destination.Tells
        ⟨output.resolve disk.here, report.rootPath.resolve disk.here, overwrite⟩ pair.1 pair.2
          (.file record)) report.documents exported.files ∧
      final.writtenFiles = report.writtenFiles ++ exported.files.map FileRecord.absolute := by
  unfold exportAll Disk.resolve at done
  split at done
  · cases done
  · cases done
  · rename_i place root here there
    split at here <;> cases here
    split at there <;> cases there
    split at done
    · cases done
    · rename_i found
      cases done
      obtain ⟨more, run⟩ := Destination.exportAll_through (congrArg Prod.snd found)
      obtain ⟨tells, files, errors⟩ := Destination.writeDocuments_outcomes run
      rw [List.nil_append] at files errors
      refine ⟨?_, rfl⟩
      rw [files]
      refine Destination.records_of_sound tells ?_
      rw [← errors]
      exact (List.append_eq_nil_iff.mp sound).2

end RailSpec.Report
