import RailSpec.Proofs.Disk.File
import RailSpec.Proofs.Disk.Path
import RailSpec.Proofs.Result
import RailSpec.Proofs.Text.Utf8
import RailSpec.Report.Export

/-!
What is left of an export. After a run without errors the file of every document holds that
document, except where overwriting was allowed and a later document of the run went to the same
place.
-/

namespace RailSpec.Destination

open Disk (Path Place Writes)

variable {destination : Destination} {disk next after : Disk} {exported final : Exported}
  {file : SchemaFile} {document : TypeSpec.Document} {record : FileRecord} {lines : List Log.Line}
  {documents rest earlier later : List (SchemaFile × TypeSpec.Document)}

/-- The place that a document goes to, for a writer at `here`. -/
def placeOf (destination : Destination) (here : Place) (pair : SchemaFile × TypeSpec.Document) :
    Place :=
  (destination.target pair.1.place pair.2).resolve here

theorem target_names (proper : ∀ name ∈ destination.output, Path.IsName name) (schema : Place)
    (document : TypeSpec.Document) :
    ∀ name ∈ (destination.target schema document).names, Path.IsName name := by
  refine Path.join_names ?_ (Path.ofString_names document.name)
  unfold directory
  dsimp only
  split
  · exact proper
  · exact Path.join_names proper (Path.ofString_names _)

/-- A document with a relative name is in the directory of its schema file. -/
theorem target_joined {schema : Place} {start : String} {above names : List String}
    (directory : destination.directory schema = ⟨start, above⟩)
    (name : Path.ofString document.name = ⟨"", names⟩) :
    destination.target schema document = ⟨start, above ++ names⟩ := by
  rw [target, directory, name]
  rfl

/-! One document. -/

theorem writeDocument_writes (destination : Destination) (disk : Disk) (file : SchemaFile)
    (document : TypeSpec.Document) : ∃ result,
    Writes disk (destination.target file.place document) (Text.Utf8.encode document.content)
      destination.overwrite ((destination.writeDocument disk file document).1, result) := by
  have writes := Disk.write_writes disk (destination.target file.place document)
    (Text.Utf8.encode document.content) destination.overwrite
  unfold writeDocument Disk.writeText
  dsimp only
  split
  all_goals
    rename_i found
    rw [found] at writes
    exact ⟨_, writes⟩

/-- A record is made of a file that was written, and names it by its path from the root. -/
theorem writeDocument_file
    (done : destination.writeDocument disk file document = (after, .ok (.file record))) :
    (∃ bytes, Writes disk (destination.target file.place document)
      (Text.Utf8.encode document.content) destination.overwrite (after, .ok bytes)) ∧
      (destination.target file.place document).root = "/" ∧
      record.absolute = (destination.target file.place document).toString := by
  have writes := Disk.write_writes disk (destination.target file.place document)
    (Text.Utf8.encode document.content) destination.overwrite
  unfold writeDocument Disk.writeText at done
  dsimp only at done
  split at done
  · rename_i next bytes found
    rw [found] at writes
    obtain ⟨rfl, recorded⟩ := Prod.mk.inj done
    obtain ⟨made, recorded, same⟩ := map_ok recorded
    cases same
    refine ⟨⟨bytes, writes⟩, ?_⟩
    unfold Destination.record at recorded
    dsimp only at recorded
    split at recorded
    · rename_i relative inside
      cases recorded
      unfold Path.below? at inside
      split at inside
      · rename_i below
        simp only [Bool.and_eq_true, decide_eq_true_eq] at below
        exact ⟨below.1.symm, rfl⟩
      · cases inside
    · cases recorded
  · cases done
  · cases done

/-! One document after the other. -/

/-- What is exported before anything else is exported after it. -/
theorem writeDocuments_cons
    (done : destination.writeDocuments disk exported ((file, document) :: rest) =
      (after, .ok (final, lines))) :
    ∃ next written more, destination.writeDocument disk file document = (next, .ok written) ∧
      destination.writeDocuments next (exported.add written) rest = (after, .ok (final, more)) := by
  rw [writeDocuments] at done
  split at done
  · cases done
  · rename_i next written here
    split at done
    · cases done
    · rename_i after' final' more there
      cases done
      exact ⟨next, written, more, here, there⟩

theorem writeDocuments_grow
    (done : destination.writeDocuments disk exported documents = (after, .ok (final, lines))) :
    exported.files <+: final.files ∧ exported.errors <+: final.errors := by
  induction documents generalizing disk exported lines with
  | nil =>
    cases done
    exact ⟨List.prefix_rfl, List.prefix_rfl⟩
  | cons pair rest ih =>
    obtain ⟨next, written, more, _, there⟩ := writeDocuments_cons done
    obtain ⟨files, errors⟩ := ih there
    cases written with
    | file record => exact ⟨(List.prefix_append ..).trans files, errors⟩
    | refused message => exact ⟨files, (List.prefix_append ..).trans errors⟩

/-- Without errors at the end, the first document of a run was written. -/
theorem writeDocuments_first (sound : final.errors = [])
    (done : destination.writeDocuments disk exported ((file, document) :: rest) =
      (after, .ok (final, lines))) :
    ∃ next record more, destination.writeDocument disk file document = (next, .ok (.file record)) ∧
      destination.writeDocuments next (exported.add (.file record)) rest =
        (after, .ok (final, more)) := by
  obtain ⟨next, written, more, here, there⟩ := writeDocuments_cons done
  cases written with
  | file record => exact ⟨next, record, more, here, there⟩
  | refused message =>
    have errors := (writeDocuments_grow there).2
    rw [sound, List.prefix_nil] at errors
    cases (List.append_eq_nil_iff.mp errors).2

theorem writeDocuments_length (sound : final.errors = [])
    (done : destination.writeDocuments disk exported documents = (after, .ok (final, lines))) :
    final.files.length = exported.files.length + documents.length := by
  induction documents generalizing disk exported lines with
  | nil =>
    cases done
    rfl
  | cons pair rest ih =>
    obtain ⟨next, record, more, _, there⟩ := writeDocuments_first sound done
    rw [ih there, Exported.add, List.length_append, List.length_cons, List.length_cons,
      List.length_nil]
    omega

/-- The disk that a run leaves is that of its first document if that ended it, else that of the
rest. -/
theorem writeDocuments_disk (destination : Destination) (disk : Disk) (exported : Exported)
    (file : SchemaFile) (document : TypeSpec.Document)
    (rest : List (SchemaFile × TypeSpec.Document)) :
    (∃ next escape, destination.writeDocument disk file document = (next, .error escape) ∧
      (destination.writeDocuments disk exported ((file, document) :: rest)).1 = next) ∨
    ∃ next written, destination.writeDocument disk file document = (next, .ok written) ∧
      (destination.writeDocuments disk exported ((file, document) :: rest)).1 =
        (destination.writeDocuments next (exported.add written) rest).1 := by
  rw [writeDocuments]
  split
  · rename_i next escape found
    exact .inl ⟨next, escape, found, rfl⟩
  · rename_i next written found
    refine .inr ⟨next, written, found, ?_⟩
    split <;> rename_i there <;> rw [there]

/-- A file is read as before a run unless a document of the run was free to replace it. -/
theorem writeDocuments_keeps {path : Path} {content : ByteArray}
    (read : disk.readBytes path = .ok content)
    (apart : destination.overwrite = true → ∀ pair ∈ documents,
      destination.placeOf disk.here pair ≠ path.resolve disk.here) :
    (destination.writeDocuments disk exported documents).1.readBytes path = .ok content := by
  induction documents generalizing disk exported with
  | nil => exact read
  | cons pair rest ih =>
    obtain ⟨file, document⟩ := pair
    obtain ⟨result, writes⟩ := writeDocument_writes destination disk file document
    have kept := Disk.readBytes_kept writes read fun allowed =>
      apart allowed (file, document) (List.mem_cons_self ..)
    rcases writeDocuments_disk destination disk exported file document rest with
      ⟨next, escape, found, same⟩ | ⟨next, written, found, same⟩
    · rw [found] at kept
      rw [same]
      exact kept
    · rw [found] at kept writes
      rw [same]
      refine ih kept fun allowed other member => ?_
      rw [writes.here_eq]
      exact apart allowed other (List.mem_cons_of_mem _ member)

/-- Every document is in its file at the end, unless a later one was free to replace it. -/
theorem writeDocuments_reads (proper : ∀ name ∈ destination.output, Path.IsName name)
    (sound : final.errors = [])
    (done : destination.writeDocuments disk exported (earlier ++ (file, document) :: later) =
      (after, .ok (final, lines)))
    (last : destination.overwrite = true → ∀ other ∈ later,
      destination.placeOf disk.here other ≠ destination.placeOf disk.here (file, document)) :
    ∃ record, final.files[exported.files.length + earlier.length]? = some record ∧
      record.absolute = (destination.target file.place document).toString ∧
      after.readBytes (Path.ofString record.absolute) =
        .ok (Text.Utf8.encode document.content) := by
  induction earlier generalizing disk exported lines with
  | nil =>
    -- the document is in its file once it is written, and the rest of the run keeps it there
    obtain ⟨next, record, more, here, there⟩ := writeDocuments_first sound done
    obtain ⟨⟨bytes, writes⟩, root, absolute⟩ := writeDocument_file here
    have named := Path.ofString_toString root (target_names proper file.place document)
    refine ⟨record, ?_, absolute, ?_⟩
    · obtain ⟨tail, files⟩ := (writeDocuments_grow there).1
      simp [← files, Exported.add]
    · have kept : (destination.writeDocuments next (exported.add (.file record)) later).1.readBytes
          (destination.target file.place document) = .ok (Text.Utf8.encode document.content) := by
        refine writeDocuments_keeps (Disk.readBytes_written writes) fun allowed other member => ?_
        rw [writes.here_eq]
        exact last allowed other member
      rw [there] at kept
      rw [absolute, named]
      exact kept
  | cons pair rest ih =>
    obtain ⟨next, record, more, here, there⟩ := writeDocuments_first sound done
    obtain ⟨⟨bytes, writes⟩, _, _⟩ := writeDocument_file here
    rw [← writes.here_eq] at last
    obtain ⟨found, index, absolute, read⟩ := ih there last
    refine ⟨found, ?_, absolute, read⟩
    rw [← index, Exported.add, List.length_append, List.length_cons, List.length_cons,
      List.length_nil]
    congr 1
    omega

def usersFile : SchemaFile := ⟨["schema.rb"], "schema.rb", {}⟩

def usersDocument (content : String) : TypeSpec.Document :=
  { name := "Users.tsp", content }

def usersRecord (content : String) : FileRecord :=
  ⟨"Users.tsp", "/Users.tsp", (Text.Utf8.encode content).size, Text.contentLines content,
    "schema.rb"⟩

/-- A disk with nothing on it but perhaps that file. -/
def usersDisk (content : Option String) : Disk :=
  { tree := ⟨content.toList.map fun text => (["Users.tsp"], .file (Text.Utf8.encode text))⟩
    marks := ["a"] }

def rootDestination : Destination := { output := [], root := [], overwrite := true }

theorem target_users (content : String) :
    rootDestination.target usersFile.place (usersDocument content) = ⟨"/", ["Users.tsp"]⟩ := by
  have name : Path.ofString "Users.tsp" = ⟨"", ["Users.tsp"]⟩ := by decide +kernel
  exact target_joined rfl name

theorem makeDirectories_users (old : Option String) :
    (usersDisk old).makeDirectories ⟨"/", []⟩ = (usersDisk old, none) := by
  have refused : (usersDisk old).makeDirectory ⟨"/", []⟩ = .error (.step .exists "/") := by
    have clean : Path.hasNull ⟨"/", []⟩ = false := rfl
    have text : Path.toString ⟨"/", []⟩ = "/" := rfl
    rw [Disk.makeDirectory, clean, text]
    rfl
  rw [Disk.makeDirectories, refused]
  rfl

theorem write_users (old : Option String) (content : String) :
    (usersDisk old).write ⟨"/", ["Users.tsp"]⟩ (Text.Utf8.encode content) true =
      (usersDisk (some content), .ok (Text.Utf8.encode content).size) := by
  have parent : Path.parent ⟨"/", ["Users.tsp"]⟩ = ⟨"/", []⟩ := rfl
  rw [Disk.write, parent, makeDirectories_users]
  cases old <;> rfl

theorem writeDocument_users (old : Option String) (content : String) :
    rootDestination.writeDocument (usersDisk old) usersFile (usersDocument content) =
      (usersDisk (some content), .ok (.file (usersRecord content))) := by
  have inside : (Path.ofPlace rootDestination.output).below? ⟨"/", ["Users.tsp"]⟩ =
      some ⟨"", ["Users.tsp"]⟩ := by decide +kernel
  have relative : Path.toString ⟨"", ["Users.tsp"]⟩ = "Users.tsp" := by decide +kernel
  have absolute : Path.toString ⟨"/", ["Users.tsp"]⟩ = "/Users.tsp" := by decide +kernel
  have written : (usersDisk old).writeText ⟨"/", ["Users.tsp"]⟩ (usersDocument content).content
      rootDestination.overwrite = _ := write_users old content
  rw [writeDocument, target_users, written]
  dsimp only
  rw [record, inside]
  dsimp only
  rw [relative, absolute]
  rfl

theorem exportAll_users : rootDestination.exportAll (usersDisk none)
    [(usersFile, usersDocument "a"), (usersFile, usersDocument "b")] =
      (usersDisk (some "b"), .ok (⟨[usersRecord "a", usersRecord "b"], []⟩,
        [writtenLine (.file (usersRecord "a")), writtenLine (.file (usersRecord "b")),
          exportedLine ⟨[usersRecord "a", usersRecord "b"], []⟩])) := by
  rw [exportAll, writeDocuments, writeDocument_users]
  dsimp only
  rw [writeDocuments, writeDocument_users]
  rfl

theorem readBytes_users (content : String) :
    (usersDisk (some content)).readBytes (Path.ofString "/Users.tsp") =
      .ok (Text.Utf8.encode content) := by
  have path : Path.ofString "/Users.tsp" = ⟨"/", ["Users.tsp"]⟩ := by decide +kernel
  rw [path]
  rfl

end RailSpec.Destination
