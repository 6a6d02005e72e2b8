import Mathlib.Data.List.Forall2
import RailSpec.Proofs.Result
import RailSpec.Report.Files

/-!
What a report over schema files holds: the files in order, each as it was read by itself, and no
errors but theirs.
-/

namespace RailSpec

variable {generator : Generator} {disk : Disk} {root : Disk.Place} {path : Disk.Path}
  {paths : List Disk.Path} {report final : Report} {file : SchemaFile} {files : List SchemaFile}
  {line : Log.Line} {lines : List Log.Line}

namespace Report

/-- The errors that files put into a report. -/
def markedErrors (files : List SchemaFile) : List String :=
  files.flatMap fun file => file.generation.diagnostics.errors.map (marked file)

/-- The warnings that files put into a report. -/
def markedWarnings (files : List SchemaFile) : List String :=
  files.flatMap fun file => file.generation.diagnostics.warnings.map (marked file)

theorem markedErrors_isEmpty (files : List SchemaFile) : (!(markedErrors files).isEmpty) = true ↔
    ∃ file ∈ files, file.generation.diagnostics.hasErrors = true := by
  simp [markedErrors, Diagnostics.hasErrors]

end Report

namespace Generator

/-- Files as they are read from their paths. -/
def Reads (generator : Generator) (disk : Disk) (root : Disk.Place) :
    List Disk.Path → List SchemaFile → Prop :=
  List.Forall₂ fun path file => ∃ line, generator.readFile disk root path = .ok (file, line)

/-- A schema file of which something was read, with an error. -/
def Fails (generator : Generator) (disk : Disk) (path : Disk.Path) : Prop :=
  ∃ generation line, generator.tryFile disk path = .ok (generation, line) ∧
    generation.diagnostics.hasErrors = true

theorem readFile_tryFile (done : generator.readFile disk root path = .ok (file, line)) :
    generator.tryFile disk path = .ok (file.generation, line) := by
  obtain ⟨relative, _, more⟩ := bind_ok done
  obtain ⟨⟨generation, told⟩, tried, same⟩ := bind_ok more
  cases same
  exact tried

/-- A file has an error just if its path fails. -/
theorem Reads.fails (reads : generator.Reads disk root paths files) :
    (∃ file ∈ files, file.generation.diagnostics.hasErrors = true) ↔
      ∃ path ∈ paths, generator.Fails disk path := by
  induction reads with
  | nil => simp
  | @cons path file paths files read _ ih =>
    obtain ⟨line, read⟩ := read
    have tried := readFile_tryFile read
    have here : file.generation.diagnostics.hasErrors = true ↔ generator.Fails disk path := by
      constructor
      · exact fun errors => ⟨_, _, tried, errors⟩
      · rintro ⟨generation, told, found, errors⟩
        cases tried.symm.trans found
        exact errors
    simp only [List.exists_mem_cons_iff, here, ih]

theorem addFiles_reads (done : generator.addFiles disk root report paths = .ok (final, lines)) :
    ∃ files, generator.Reads disk root paths files ∧ final.files = report.files ++ files ∧
      final.warnings = report.warnings ++ Report.markedWarnings files ∧
      final.errors = report.errors ++ Report.markedErrors files ∧
      final.writtenFiles = report.writtenFiles := by
  induction paths generalizing report lines with
  | nil =>
    cases done
    exact ⟨[], .nil, (List.append_nil _).symm, (List.append_nil _).symm, (List.append_nil _).symm, rfl⟩
  | cons path rest ih =>
    obtain ⟨⟨file, line⟩, read, more⟩ := bind_ok done
    obtain ⟨⟨later, told⟩, there, same⟩ := bind_ok more
    cases same
    obtain ⟨files, reads, held, warnings, errors, written⟩ := ih there
    refine ⟨file :: files, .cons ⟨line, read⟩ reads, ?_, ?_, ?_, written⟩
    · rw [held]
      exact List.append_assoc _ [file] files
    · rw [warnings]
      exact List.append_assoc _ _ _
    · rw [errors]
      exact List.append_assoc _ _ _

/-- A report has its files from their paths, has failed just if one of them has, and nothing is
written yet. -/
theorem generateFiles_reads {projectRoot : Disk.Path}
    (done : generator.generateFiles disk paths projectRoot = .ok (report, lines)) :
    (∃ root, disk.resolve projectRoot = .ok root ∧
        generator.Reads disk root paths report.files) ∧
      (report.parseFailed = true ↔ ∃ path ∈ paths, generator.Fails disk path) ∧
      report.writtenFiles = [] := by
  obtain ⟨root, resolved, more⟩ := bind_ok done
  obtain ⟨files, reads, held, _, errors, written⟩ := addFiles_reads more
  rw [List.nil_append] at held errors
  subst held
  refine ⟨⟨root, mapError_ok resolved, reads⟩, ?_, written⟩
  rw [Report.parseFailed, errors, Report.markedErrors_isEmpty, reads.fails]

end Generator

end RailSpec
