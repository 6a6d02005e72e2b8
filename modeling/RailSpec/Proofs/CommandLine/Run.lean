import RailSpec.CommandLine.Run
import RailSpec.Proofs.Report.Files
import RailSpec.Proofs.Report.Outcomes

/-!
How a run of the command ends. A run has to find its root, its settings and its schema files before
it reads any of them, and has to read all of them without an error before it writes anything.
-/

namespace RailSpec.CommandLine

open Disk (Path)

variable {reader : Reader} {disk after : Disk} {arguments : Arguments} {settings : Settings}
  {root : Path} {paths : List Path} {report : Report} {outcome : Outcome} {log : List Log.Line}

/-- What a run has found before it reads a schema file: a root that is a directory, settings that
are accepted, and schema files. -/
structure Inputs (disk : Disk) (arguments : Arguments) (root : Path) (settings : Settings)
    (paths : List Path) : Prop where
  rooted : ∃ text place, arguments.projectRoot = .value text ∧
    disk.resolve (Path.ofString text) = .ok place ∧ root = Path.ofPlace place
  directory : disk.isDirectory root = .ok true
  accepted : settingsOf disk arguments = .ok settings
  schemas : ∃ warnings, schemaPaths disk root arguments.schemas = .ok (paths, warnings)
  found : paths ≠ []

/-- With its inputs a run reads the schema files. -/
theorem Inputs.run_eq (inputs : Inputs disk arguments root settings paths) (reader : Reader) :
    ∃ log, run reader disk arguments =
      generate ⟨reader, settings⟩ disk arguments root paths log := by
  obtain ⟨text, place, given, resolved, rfl⟩ := inputs.rooted
  obtain ⟨warnings, schemas⟩ := inputs.schemas
  refine ⟨warnings, ?_⟩
  rw [run, given]
  dsimp only
  rw [runIn, resolved]
  dsimp only
  rw [inputs.directory]
  dsimp only
  rw [inputs.accepted]
  dsimp only
  rw [runFiles, schemas]
  have found := inputs.found
  cases paths with
  | nil => exact absurd rfl found
  | cons path rest => rfl

/-- A run that ends by itself has no inputs and changes nothing, or it has read its schema files. -/
theorem run_inputs (done : run reader disk arguments = (after, .ok outcome)) :
    (outcome.ending = .inputError ∧ after = disk) ∨
      ∃ root settings paths log, Inputs disk arguments root settings paths ∧
        generate ⟨reader, settings⟩ disk arguments root paths log = (after, .ok outcome) := by
  unfold run at done
  split at done
  · rename_i text given
    unfold runIn at done
    split at done
    · cases done
    · rename_i place resolved
      dsimp only at done
      split at done
      · cases done
      · cases done
        exact .inl ⟨rfl, rfl⟩
      · rename_i directory
        split at done
        · rename_i settings accepted
          unfold runFiles at done
          split at done
          · cases done
          · cases done
            exact .inl ⟨rfl, rfl⟩
          · rename_i paths warnings found schemas
            refine .inr ⟨_, settings, paths, warnings, ?_, done⟩
            refine ⟨⟨text, place, given, resolved, rfl⟩, directory, accepted,
              ⟨warnings, schemas⟩, ?_⟩
            rintro rfl
            exact found rfl
        · split at done
          · cases done
          · cases done
            exact .inl ⟨rfl, rfl⟩
  · cases done

/-- What a run does with a report, and how it ends. -/
inductive Finished (disk : Disk) (arguments : Arguments) (report : Report) :
    Disk → Ending → Prop where
  | failed (errors : report.parseFailed = true) : Finished disk arguments report disk .parseError
  | empty (sound : report.parseFailed = false) (nothing : report.documents = []) :
    Finished disk arguments report disk .success
  | shown (sound : report.parseFailed = false) (dry : arguments.dryRun = true) :
    Finished disk arguments report disk .success
  | exported {after : Disk} {output : String} {exported : Exported} {final : Report}
    {lines : List Log.Line} (sound : report.parseFailed = false) (real : arguments.dryRun = false)
    (given : arguments.output = .value output)
    (done : report.exportAll disk (Path.ofString output) arguments.force =
      (after, .ok (exported, final, lines))) :
    Finished disk arguments report after
      (if final.exportErrors.isEmpty then .success else .exportError)

theorem finish_finished (done : finish disk arguments report log = (after, .ok outcome)) :
    Finished disk arguments report after outcome.ending := by
  unfold finish at done
  split at done
  · rename_i errors
    cases done
    exact .failed errors
  · rename_i sound
    split at done
    · rename_i nothing
      cases done
      exact .empty (eq_false_of_ne_true sound) (List.isEmpty_iff.mp nothing)
    · split at done
      · rename_i dry
        cases done
        exact .shown (eq_false_of_ne_true sound) dry
      · rename_i real
        split at done
        · cases done
        · cases done
        · rename_i found
          cases done
          obtain ⟨output, given, exported⟩ := Option.map_eq_some_iff.mp found
          have value : arguments.output = .value output := by
            cases value : arguments.output with
            | value text =>
              rw [value] at given
              exact congrArg Given.value (Option.some.inj given)
            | nothing =>
              rw [value] at given
              cases given
          exact .exported (eq_false_of_ne_true sound) (eq_false_of_ne_true real) value exported

theorem generate_finished {generator : Generator}
    (done : generate generator disk arguments root paths log = (after, .ok outcome)) :
    ∃ report lines, generator.generateFiles disk paths root = .ok (report, lines) ∧
      Finished disk arguments report after outcome.ending := by
  unfold generate at done
  split at done
  · cases done
  · rename_i report lines generated
    refine ⟨report, lines, generated, ?_⟩
    dsimp only at done
    split at done
    · rename_i finished
      have ends := finish_finished finished
      cases done
      exact ends
    · cases done

/-- A run that ends has found no inputs, or has a report of its schema files and is finished with
it. -/
theorem run_finished (done : run reader disk arguments = (after, .ok outcome)) :
    (outcome.ending = .inputError ∧ after = disk) ∨
      ∃ root settings paths report lines, Inputs disk arguments root settings paths ∧
        Generator.generateFiles ⟨reader, settings⟩ disk paths root = .ok (report, lines) ∧
        Finished disk arguments report after outcome.ending := by
  rcases run_inputs done with refused | ⟨root, settings, paths, log, inputs, generated⟩
  · exact .inl refused
  · obtain ⟨report, lines, read, finished⟩ := generate_finished generated
    exact .inr ⟨root, settings, paths, report, lines, inputs, read, finished⟩

theorem Finished.failed_iff {ending : Ending}
    (finished : Finished disk arguments report after ending) :
    ending.status = 1 ↔ report.parseFailed = true := by
  cases finished with
  | failed errors => exact ⟨fun _ => errors, fun _ => rfl⟩
  | empty sound => simp [Ending.status, sound]
  | shown sound => simp [Ending.status, sound]
  | exported sound =>
    rw [sound]
    split <;> simp [Ending.status]

/-- Only an export changes the disk, and it ends in a success or in errors of its own. -/
theorem Finished.unchanged {ending : Ending}
    (finished : Finished disk arguments report after ending)
    (early : ending.status = 1 ∨ ending.status = 4 ∨ arguments.dryRun = true) : after = disk := by
  cases finished with
  | failed => rfl
  | empty => rfl
  | shown => rfl
  | exported sound real =>
    split at early <;> simp [Ending.status, real] at early

/-- A report without documents, or with a written file for each of them. -/
inductive Recorded (disk : Disk) (arguments : Arguments) (report : Report) : Disk → Prop where
  | empty (nothing : report.documents = []) : Recorded disk arguments report disk
  | files {after : Disk} {output : String} {exported : Exported} {final : Report}
    {lines : List Log.Line} (given : arguments.output = .value output)
    (done : report.exportAll disk (Path.ofString output) arguments.force =
      (after, .ok (exported, final, lines)))
    (records : List.Forall₂ (fun pair record => Destination.Tells
        ⟨(Path.ofString output).resolve disk.here, report.rootPath.resolve disk.here,
          arguments.force⟩ pair.1 pair.2 (.file record)) report.documents exported.files)
    (written : final.writtenFiles = exported.files.map FileRecord.absolute) :
    Recorded disk arguments report after

theorem Finished.recorded {ending : Ending}
    (finished : Finished disk arguments report after ending) (well : ending.status = 0)
    (real : arguments.dryRun = false) (unwritten : report.writtenFiles = []) :
    Recorded disk arguments report after := by
  cases finished with
  | failed => cases well
  | empty _ nothing => exact .empty nothing
  | shown _ dry =>
    rw [real] at dry
    cases dry
  | @exported after output exported final lines _ _ given done =>
    have sound : final.exportErrors = [] := by
      split at well
      · rename_i sound
        exact List.isEmpty_iff.mp sound
      · cases well
    obtain ⟨records, written⟩ := Report.exportAll_records done sound
    rw [unwritten, List.nil_append] at written
    exact .files given done records written

def schemaPath : Path := ⟨"/", ["schema.rb"]⟩

def schemaDisk : Disk := { tree := ⟨[(["schema.rb"], .file (Text.Utf8.encode ""))]⟩ }

def schemaArguments : Arguments := { schemas := ["schema.rb"] }

def brokenGenerator : Generator := ⟨fun _ => .ok (.failed ["broken"] []), { }⟩

def brokenGeneration : Generation := { diagnostics := ⟨[], ["broken"]⟩ }

theorem schema_inputs : Inputs schemaDisk schemaArguments (Path.ofPlace []) { } [schemaPath] := by
  have here : Path.ofString "." = ⟨"", []⟩ := by decide +kernel
  have entry : Path.ofString "schema.rb" = ⟨"", ["schema.rb"]⟩ := by decide +kernel
  refine ⟨⟨".", [], rfl, ?_, rfl⟩, rfl, rfl, ⟨[], ?_⟩, List.cons_ne_nil _ _⟩
  · rw [here]
    rfl
  · rw [schemaArguments, schemaPaths, entry]
    rfl

theorem schema_tried : brokenGenerator.tryFile schemaDisk schemaPath =
    .ok (brokenGeneration, Generator.generatedLine brokenGeneration) := by
  have text : schemaDisk.readText schemaPath = .ok "" := Disk.readText_encoded rfl rfl nofun
  have made : brokenGenerator.generate "" = .ok brokenGeneration := rfl
  rw [Generator.tryFile, Generator.generateFile, text, Except.map, made]

theorem schema_generated : ∃ result,
    brokenGenerator.generateFiles schemaDisk [schemaPath] (Path.ofPlace []) = .ok result := by
  have resolved : schemaDisk.resolve (Path.ofPlace []) = .ok [] := rfl
  have relative : Generator.relativePath schemaDisk schemaPath [] = .ok "schema.rb" := by
    decide +kernel
  have read : brokenGenerator.readFile schemaDisk [] schemaPath =
      .ok (⟨["schema.rb"], "schema.rb", brokenGeneration⟩,
        Generator.generatedLine brokenGeneration) := by
    rw [Generator.readFile, relative, schema_tried]
    rfl
  have added (report : Report) : ∃ result,
      brokenGenerator.addFiles schemaDisk [] report [schemaPath] = .ok result := by
    rw [Generator.addFiles, read]
    exact ⟨_, rfl⟩
  rw [Generator.generateFiles, resolved]
  exact added _

theorem run_schema : ∃ shown, run brokenGenerator.reader schemaDisk schemaArguments =
    (schemaDisk, .ok ⟨.parseError, shown⟩) := by
  obtain ⟨log, same⟩ := schema_inputs.run_eq brokenGenerator.reader
  obtain ⟨⟨report, lines⟩, read⟩ := schema_generated
  have failed := (Generator.generateFiles_reads read).2.1.mpr
    ⟨_, List.mem_singleton_self _, _, _, schema_tried, rfl⟩
  have generator : (⟨brokenGenerator.reader, { }⟩ : Generator) = brokenGenerator := rfl
  rw [same, generator, generate, read]
  dsimp only
  rw [finish, if_pos failed]
  exact ⟨_, rfl⟩

end RailSpec.CommandLine
