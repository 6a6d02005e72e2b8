import RailSpec.Disk.File

/-!
What a path leads to. There may be nothing, a directory, a file, or a system that does not let
anything be seen; only a file that the system lets be read has a text.
-/

namespace RailSpec.Disk

/-- There is nothing where a path leads. -/
def LeadsNowhere (disk : Disk) (path : Path) : Prop :=
  path.hasNull = true ∨ disk.tree.status disk.here path = .error .missing ∨
    disk.tree.status disk.here path = .error .notDirectory

/-- What there is where a path leads. -/
structure Holds (disk : Disk) (path : Path) (entry : Entry) : Prop where
  clean : path.hasNull = false
  status : disk.tree.status disk.here path = .ok entry

/-- The system stands in the way: of the look for a file, or of its reading. -/
inductive Blocks (disk : Disk) (path : Path) : Errno → Prop where
  | look {errno : Errno} (clean : path.hasNull = false)
    (stopped : disk.tree.status disk.here path = .error errno) (lacking : errno ≠ .missing)
    (inside : errno ≠ .notDirectory) : Blocks disk path errno
  | reading {content : ByteArray} {errno : Errno} (held : disk.Holds path (.file content))
    (refused : disk.refuses .readFile path.toString = some errno) : Blocks disk path errno

variable {disk : Disk} {path : Path} {entry : Entry} {errno : Errno} {content : ByteArray}

/-- A path leads to nothing, to a directory, to a file that may be read, or past what the system
lets be looked at. -/
theorem nowhere_or_holds (disk : Disk) (path : Path) :
    disk.LeadsNowhere path ∨ disk.Holds path .directory ∨ (∃ errno, disk.Blocks path errno) ∨
      ∃ content, disk.Holds path (.file content) ∧
        disk.refuses .readFile path.toString = none := by
  cases clean : path.hasNull with
  | true => exact .inl (.inl clean)
  | false =>
    cases status : disk.tree.status disk.here path with
    | error errno =>
      by_cases missing : errno = .missing
      · exact .inl (.inr (.inl (missing ▸ status)))
      by_cases inside : errno = .notDirectory
      · exact .inl (.inr (.inr (inside ▸ status)))
      · exact .inr (.inr (.inl ⟨errno, .look clean status missing inside⟩))
    | ok entry =>
      cases entry with
      | directory => exact .inr (.inl ⟨clean, status⟩)
      | file content =>
        have held : disk.Holds path (.file content) := ⟨clean, status⟩
        cases allowed : disk.refuses .readFile path.toString with
        | some errno => exact .inr (.inr (.inl ⟨errno, .reading held allowed⟩))
        | none => exact .inr (.inr (.inr ⟨content, held, rfl⟩))

theorem LeadsNowhere.present_eq (nowhere : disk.LeadsNowhere path) : disk.present path = .ok false := by
  unfold present
  rcases nowhere with null | missing | inside
  · rw [if_pos null]
  · rw [missing]
    exact ite_self _
  · rw [inside]
    exact ite_self _

theorem Holds.present_eq (held : disk.Holds path entry) : disk.present path = .ok true := by
  rw [present, held.clean, held.status]
  rfl

theorem Holds.isFile_eq (held : disk.Holds path entry) : disk.isFile path = .ok entry.isFile := by
  rw [isFile, isKind, held.clean, held.status]
  rfl

theorem Holds.readBytes_eq (held : disk.Holds path (.file content)) :
    disk.readBytes path = .ok content := by
  rw [readBytes, held.clean, held.status]
  rfl

theorem Holds.readText_refused (held : disk.Holds path (.file content))
    (refused : disk.refuses .readFile path.toString = some errno) :
    disk.readText path = .error (.file (.step errno path.toString)) := by
  rw [readText, held.readBytes_eq, refused]

/-- What is no text in UTF-8 has no text. -/
theorem Holds.readText_broken {fault : Text.Utf8.Fault} (held : disk.Holds path (.file content))
    (allowed : disk.refuses .readFile path.toString = none)
    (broken : Text.Utf8.decode content = .error fault) :
    disk.readText path = .error (.encoding fault) := by
  rw [readText, held.readBytes_eq, allowed]
  dsimp only
  rw [broken]

theorem Holds.readText_eq {text : String} (held : disk.Holds path (.file content))
    (allowed : disk.refuses .readFile path.toString = none)
    (decoded : Text.Utf8.decode content = .ok text) :
    disk.readText path = .ok (String.ofList (Text.unifyLineEnds text.toList)) := by
  rw [readText, held.readBytes_eq, allowed]
  dsimp only
  rw [decoded]

theorem holds_of_readBytes (read : disk.readBytes path = .ok content) :
    disk.Holds path (.file content) := by
  unfold readBytes at read
  split at read
  · cases read
  · rename_i clean
    split at read
    · rename_i status
      cases read
      exact ⟨eq_false_of_ne_true clean, status⟩
    · cases read
    · cases read

theorem holds_of_readText {text : String} (read : disk.readText path = .ok text) :
    ∃ content, disk.Holds path (.file content) := by
  unfold readText at read
  split at read
  · cases read
  · cases read
  · rename_i content bytes _
    exact ⟨content, holds_of_readBytes bytes⟩

end RailSpec.Disk
