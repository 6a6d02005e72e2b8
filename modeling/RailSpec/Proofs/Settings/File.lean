import RailSpec.Proofs.Disk.Look
import RailSpec.Settings.File

/-!
Settings files without settings. Nothing is read where there is no file or where the system stands
in the way, and of what is read only a mapping counts.
-/

namespace RailSpec.Settings

open Disk (Path Errno)

variable {disk : Disk} {path : Path} {text : String} {trouble : Trouble}

/-- The ways in which a settings file gives no mapping. -/
inductive Unloadable (disk : Disk) (path : Path) : Trouble → Prop where
  | absent (nowhere : disk.LeadsNowhere path) : Unloadable disk path (.absent path.toString)
  | directory (held : disk.Holds path .directory) : Unloadable disk path (.notFile path.toString)
  | blocked {errno : Errno} (stopped : disk.Blocks path errno) :
    Unloadable disk path (.file (.file (.step errno path.toString)))
  | encoding {content : ByteArray} {fault : Text.Utf8.Fault} (held : disk.Holds path (.file content))
    (allowed : disk.refuses .readFile path.toString = none)
    (broken : Text.Utf8.decode content = .error fault) :
    Unloadable disk path (.file (.encoding fault))
  | brokenJson {text : String} {fault : Json.Fault} (read : disk.readText path = .ok text)
    (named : isJsonPath path = true) (broken : Json.parse text = .error fault) :
    Unloadable disk path (.json path.toString fault)
  | noObject {text : String} {value : Value} (read : disk.readText path = .ok text)
    (named : isJsonPath path = true) (parsed : Json.parse text = .ok value)
    (other : ∀ fields, value ≠ .mapping fields) : Unloadable disk path (.noObject value.kind)
  | brokenYaml {text : String} {fault : Yaml.Fault} (read : disk.readText path = .ok text)
    (named : isJsonPath path = false) (broken : readYaml text = .error fault) :
    Unloadable disk path (.yaml path.toString fault)
  | noMapping {text kind : String} (read : disk.readText path = .ok text)
    (named : isJsonPath path = false) (parsed : readYaml text = .ok (.other kind)) :
    Unloadable disk path (.noMapping kind)

/-- The mapping of a text, read as the name of its file says. -/
def readNamed (path : Path) (text : String) : Except Trouble Mapping :=
  if isJsonPath path then readJson path text else readYamlMapping path text

theorem load_nowhere (nowhere : disk.LeadsNowhere path) :
    load disk path = .error (.absent path.toString) := by
  rw [load, nowhere.present_eq]

theorem load_directory (held : disk.Holds path .directory) :
    load disk path = .error (.notFile path.toString) := by
  rw [load, held.present_eq, held.isFile_eq]
  rfl

theorem load_file {content : ByteArray} (held : disk.Holds path (.file content)) :
    load disk path = match disk.readText path with
      | .error fault => .error (.file fault)
      | .ok text => readNamed path text := by
  rw [load, held.present_eq, held.isFile_eq]
  rfl

theorem load_blocked {errno : Errno} (stopped : disk.Blocks path errno) :
    load disk path = .error (.file (.file (.step errno path.toString))) := by
  cases stopped with
  | look clean stopped lacking inside =>
    have unseen : disk.present path = .error (.step errno path.toString) := by
      rw [Disk.present, clean, stopped]
      cases errno <;> first | rfl | contradiction
    rw [load, unseen]
  | reading held refused =>
    rw [load_file held, held.readText_refused refused]

theorem load_text (read : disk.readText path = .ok text) : load disk path = readNamed path text := by
  obtain ⟨content, held⟩ := Disk.holds_of_readText read
  rw [load_file held, read]

theorem readJson_noObject {value : Value} (parsed : Json.parse text = .ok value)
    (other : ∀ fields, value ≠ .mapping fields) :
    readJson path text = .error (.noObject value.kind) := by
  rw [readJson, parsed]
  cases value with
  | mapping fields => exact absurd rfl (other fields)
  | _ => rfl

theorem readNamed_unloadable (read : disk.readText path = .ok text)
    (failed : readNamed path text = .error trouble) : Unloadable disk path trouble := by
  unfold readNamed at failed
  split at failed
  · rename_i named
    unfold readJson at failed
    split at failed
    · rename_i fault broken
      cases failed
      exact .brokenJson read named broken
    · cases failed
    · rename_i value other parsed
      cases failed
      exact .noObject read named parsed other
  · rename_i named
    unfold readYamlMapping at failed
    split at failed
    · rename_i fault broken
      cases failed
      exact .brokenYaml read (eq_false_of_ne_true named) broken
    · cases failed
    · cases failed
    · rename_i kind parsed
      cases failed
      exact .noMapping read (eq_false_of_ne_true named) parsed

/-- A settings file gives no mapping in one of these ways, and each has a trouble of its own. -/
theorem load_error_iff : load disk path = .error trouble ↔ Unloadable disk path trouble := by
  constructor
  · intro failed
    rcases disk.nowhere_or_holds path with nowhere | held | ⟨errno, stopped⟩ | ⟨content, held, allowed⟩
    · rw [load_nowhere nowhere] at failed
      cases failed
      exact .absent nowhere
    · rw [load_directory held] at failed
      cases failed
      exact .directory held
    · rw [load_blocked stopped] at failed
      cases failed
      exact .blocked stopped
    · cases decoded : Text.Utf8.decode content with
      | error fault =>
        rw [load_file held, held.readText_broken allowed decoded] at failed
        cases failed
        exact .encoding held allowed decoded
      | ok text =>
        have read := held.readText_eq allowed decoded
        rw [load_text read] at failed
        exact readNamed_unloadable read failed
  · intro unloadable
    cases unloadable with
    | absent nowhere => exact load_nowhere nowhere
    | directory held => exact load_directory held
    | blocked stopped => exact load_blocked stopped
    | encoding held allowed broken => rw [load_file held, held.readText_broken allowed broken]
    | brokenJson read named broken =>
      rw [load_text read, readNamed, if_pos named, readJson, broken]
    | noObject read named parsed other =>
      rw [load_text read, readNamed, if_pos named, readJson_noObject parsed other]
    | brokenYaml read named broken =>
      rw [load_text read, readNamed, named, readYamlMapping, broken]
      rfl
    | noMapping read named parsed =>
      rw [load_text read, readNamed, named, readYamlMapping, parsed]
      rfl

end RailSpec.Settings
