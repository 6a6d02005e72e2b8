import RailSpec.Proofs.Report.Outcomes

/-!
Export without permission to overwrite. Nothing that was there before a run is touched, whether or
not the run gets through, and of several documents for one place the first that is written stays.
-/

namespace RailSpec.Destination

open Disk (Path Place Entry Writes)

variable {destination : Destination} {disk next : Disk} {exported : Exported}
  {file : SchemaFile} {document : TypeSpec.Document} {written : Written} {index : Nat}
  {place : Place} {entry : Entry} {pair : SchemaFile × TypeSpec.Document}
  {documents rest : List (SchemaFile × TypeSpec.Document)}

/-- A run comes to a document, by its number among all, and writes its file. -/
inductive Wrote (destination : Destination) :
    Disk → List (SchemaFile × TypeSpec.Document) → Nat → Prop where
  | here {disk : Disk} {file : SchemaFile} {document : TypeSpec.Document}
    {rest : List (SchemaFile × TypeSpec.Document)} {bytes : Nat}
    (wrote : (disk.writeText (destination.target file.place document) document.content
      destination.overwrite).2 = .ok bytes) :
    Wrote destination disk ((file, document) :: rest) 0
  | later {disk next : Disk} {file : SchemaFile} {document : TypeSpec.Document}
    {rest : List (SchemaFile × TypeSpec.Document)} {written : Written} {index : Nat}
    (done : destination.writeDocument disk file document = (next, .ok written))
    (wrote : Wrote destination next rest index) :
    Wrote destination disk ((file, document) :: rest) (index + 1)

/-- A run does not write a document, by its number, and refuses it if it comes to it. -/
structure Denies (destination : Destination) (disk : Disk)
    (documents : List (SchemaFile × TypeSpec.Document)) (index : Nat) : Prop where
  unwritten : ¬ destination.Wrote disk documents index
  refused : ∀ outcome, (destination.outcomes disk documents)[index]? = some outcome →
    ∃ message, outcome = .refused message

theorem Denies.later (done : destination.writeDocument disk file document = (next, .ok written))
    (denies : destination.Denies next rest index) :
    destination.Denies disk ((file, document) :: rest) (index + 1) := by
  refine ⟨fun wrote => ?_, fun outcome found => ?_⟩
  · cases wrote with
    | later done' wrote =>
      cases done.symm.trans done'
      exact denies.unwritten wrote
  · rw [outcomes_cons done] at found
    exact denies.refused outcome found

/-- Behind a document that ends a run no other is written. -/
theorem Denies.ended {escape : Escape}
    (ended : destination.writeDocument disk file document = (next, .error escape)) :
    destination.Denies disk ((file, document) :: rest) (index + 1) := by
  refine ⟨fun wrote => ?_, fun outcome found => ?_⟩
  · cases wrote with
    | later done => cases ended.symm.trans done
  · rw [outcomes, ended] at found
    cases found

theorem exportAll_disk (destination : Destination) (disk : Disk)
    (documents : List (SchemaFile × TypeSpec.Document)) :
    (destination.exportAll disk documents).1 = (destination.writeDocuments disk { } documents).1 := by
  unfold exportAll
  split <;> rename_i found <;> rw [found]

theorem writeText_writes {bytes : Nat}
    (wrote : (disk.writeText (destination.target file.place document) document.content
      destination.overwrite).2 = .ok bytes) :
    Writes disk (destination.target file.place document) (Text.Utf8.encode document.content)
      destination.overwrite ((destination.writeDocument disk file document).1, .ok bytes) := by
  rw [writeDocument_disk, ← wrote]
  exact Disk.write_writes ..

section Guarded

variable (guarded : destination.overwrite = false)
include guarded

theorem writeDocument_stays (file : SchemaFile) (document : TypeSpec.Document)
    (there : disk.tree.found? place = some entry) :
    (destination.writeDocument disk file document).1.tree.found? place = some entry := by
  obtain ⟨result, writes⟩ := writeDocument_writes destination disk file document
  exact writes.stays there (.inr (.inl guarded))

theorem writeDocuments_stays (there : disk.tree.found? place = some entry) :
    (destination.writeDocuments disk exported documents).1.tree.found? place = some entry := by
  induction documents generalizing disk exported with
  | nil => exact there
  | cons pair rest ih =>
    obtain ⟨file, document⟩ := pair
    have kept := writeDocument_stays guarded file document there
    rcases writeDocuments_disk destination disk exported file document rest with
      ⟨next, escape, found, same⟩ | ⟨next, written, found, same⟩
    · rw [found] at kept
      rw [same]
      exact kept
    · rw [found] at kept
      rw [same]
      exact ih kept

/-- Where something is, no document is written. -/
theorem writeText_taken {bytes : Nat}
    (there : disk.tree.found? (destination.placeOf disk.here (file, document)) = some entry) :
    (disk.writeText (destination.target file.place document) document.content
      destination.overwrite).2 ≠ .ok bytes := by
  intro wrote
  cases writeText_writes wrote with
  | written grows here clean leads noDirectory free target others =>
    have vacant := free guarded
    rw [grows.here] at vacant
    cases vacant.symm.trans (grows.stays there)

theorem writeDocument_taken
    (there : disk.tree.found? (destination.placeOf disk.here (file, document)) = some entry)
    (done : destination.writeDocument disk file document = (next, .ok written)) :
    ∃ message, written = .refused message := by
  have step := writeDocument_step destination disk file document
  rw [done] at step
  generalize same : (Except.ok written : Except Escape Written) = result at step
  cases step with
  | written wrote => exact absurd (congrArg Prod.snd wrote) (writeText_taken guarded there)
  | nullByte => cases same
  | refused fault =>
    cases same
    exact ⟨_, rfl⟩

/-- No document is written where something is. -/
theorem denies_taken (there : disk.tree.found? place = some entry)
    (member : documents[index]? = some pair) (same : destination.placeOf disk.here pair = place) :
    destination.Denies disk documents index := by
  induction documents generalizing disk index with
  | nil => cases member
  | cons first rest ih =>
    obtain ⟨file, document⟩ := first
    cases index with
    | zero =>
      cases member
      subst same
      refine ⟨fun wrote => ?_, fun outcome found => ?_⟩
      · cases wrote with
        | here wrote => exact writeText_taken guarded there wrote
      · rw [outcomes] at found
        split at found
        · cases found
        · rename_i next written done
          cases found
          exact writeDocument_taken guarded there done
    | succ index =>
      -- what is there stays for the rest of the run
      have kept := writeDocument_stays guarded file document there
      obtain ⟨result, writes⟩ := writeDocument_writes destination disk file document
      rw [← writes.here_eq] at same
      rcases writeDocuments_disk destination disk { } file document rest with
        ⟨next, escape, ended, _⟩ | ⟨next, written, done, _⟩
      · exact .ended ended
      · rw [done] at kept same
        exact (ih kept member same).later done

/-- A file that is written first is there at the end of the run. -/
theorem readBytes_wrote {bytes : Nat} (exported : Exported)
    (wrote : (disk.writeText (destination.target file.place document) document.content
      destination.overwrite).2 = .ok bytes) :
    (destination.writeDocuments disk exported ((file, document) :: rest)).1.readBytes
      (destination.target file.place document) = .ok (Text.Utf8.encode document.content) := by
  have read := Disk.readBytes_written (writeText_writes wrote)
  rcases writeDocuments_disk destination disk exported file document rest with
    ⟨next, escape, ended, same⟩ | ⟨next, written, done, same⟩
  · rw [ended] at read
    exact same ▸ read
  · rw [done] at read
    rw [same]
    exact writeDocuments_keeps read fun allowed => by rw [guarded] at allowed; cases allowed

/-- Behind a file that is written first no document takes its place. -/
theorem denies_wrote {bytes : Nat}
    (wrote : (disk.writeText (destination.target file.place document) document.content
      destination.overwrite).2 = .ok bytes)
    (member : rest[index]? = some pair)
    (same : destination.placeOf disk.here pair = destination.placeOf disk.here (file, document)) :
    destination.Denies disk ((file, document) :: rest) (index + 1) := by
  have writes := writeText_writes wrote
  -- the file is there when the rest of the run begins
  have there := (Disk.readBytes_iff.mp (Disk.readBytes_written writes)).2.2
  rw [← writes.here_eq] at same
  rcases writeDocuments_disk destination disk { } file document rest with
    ⟨next, escape, ended, _⟩ | ⟨next, written, done, _⟩
  · exact .ended ended
  · rw [done] at there same
    have denies : destination.Denies next rest index := denies_taken guarded there member same
    exact denies.later done

/-- A file that is written in a run is there at its end, and no later document takes its place. -/
theorem wrote_stays (exported : Exported) (wrote : destination.Wrote disk documents index)
    (member : documents[index]? = some (file, document)) :
    (destination.writeDocuments disk exported documents).1.readBytes
        (destination.target file.place document) = .ok (Text.Utf8.encode document.content) ∧
      ∀ later other, index < later → documents[later]? = some other →
        destination.placeOf disk.here other = destination.placeOf disk.here (file, document) →
        destination.Denies disk documents later := by
  induction wrote generalizing exported with
  | here wrote =>
    cases member
    refine ⟨readBytes_wrote guarded exported wrote, fun later other above found place => ?_⟩
    cases later with
    | zero => omega
    | succ later => exact denies_wrote guarded wrote found place
  | @later disk next first document' rest written index done wrote ih =>
    obtain ⟨result, writes⟩ := writeDocument_writes destination disk first document'
    have unmoved := writes.here_eq
    rw [done] at unmoved
    rcases writeDocuments_disk destination disk exported first document' rest with
      ⟨next', escape, found, _⟩ | ⟨next', written', found, same⟩
    · cases done.symm.trans found
    · cases done.symm.trans found
      obtain ⟨read, others⟩ := ih (exported.add written) member
      rw [unmoved] at others
      refine ⟨same ▸ read, fun later other above found place => ?_⟩
      cases later with
      | zero => omega
      | succ later => exact (others later other (by omega) found place).later done

end Guarded

/-- Without permission to overwrite, an export leaves all that was there as it was, whether or not
it gets through. A file that it writes holds its document at the end, and every later document for
the same place is refused. -/
theorem exportAll_guarded (guarded : destination.overwrite = false) (disk : Disk)
    (documents : List (SchemaFile × TypeSpec.Document)) :
    (∀ place entry, disk.tree.found? place = some entry →
      (destination.exportAll disk documents).1.tree.found? place = some entry) ∧
    (∀ path content, disk.readBytes path = .ok content →
      (destination.exportAll disk documents).1.readBytes path = .ok content) ∧
    (∀ index file document, documents[index]? = some (file, document) →
      destination.Wrote disk documents index →
      (destination.exportAll disk documents).1.readBytes (destination.target file.place document) =
          .ok (Text.Utf8.encode document.content) ∧
        ∀ later other, index < later → documents[later]? = some other →
          destination.placeOf disk.here other = destination.placeOf disk.here (file, document) →
          destination.Denies disk documents later) ∧
    ∀ exported lines, (destination.exportAll disk documents).2 = .ok (exported, lines) →
      (destination.outcomes disk documents).length = documents.length ∧
        exported.errors = (destination.outcomes disk documents).filterMap (·.message?) := by
  rw [exportAll_disk]
  refine ⟨fun place entry there => writeDocuments_stays guarded there, fun path content read => ?_,
    fun index file document member wrote => wrote_stays guarded { } wrote member,
    fun exported lines done => ?_⟩
  · exact writeDocuments_keeps read fun allowed => by rw [guarded] at allowed; cases allowed
  · obtain ⟨more, run⟩ := exportAll_through done
    obtain ⟨tells, _, errors⟩ := writeDocuments_outcomes run
    exact ⟨tells.length_eq.symm, errors⟩

def guardedDestination : Destination := { output := [], root := [] }

theorem writeText_guarded (content : String) : ((usersDisk none).writeText
    (guardedDestination.target usersFile.place (usersDocument content)) content
      guardedDestination.overwrite).2 = .ok (Text.Utf8.encode content).size := by
  have target : guardedDestination.target usersFile.place (usersDocument content) =
      ⟨"/", ["Users.tsp"]⟩ := target_users content
  have parent : Path.parent ⟨"/", ["Users.tsp"]⟩ = ⟨"/", []⟩ := rfl
  rw [target, Disk.writeText, Disk.write, parent, makeDirectories_users]
  rfl

/-- Of two documents with one name the first is written and stays. -/
theorem exportAll_guarded_users :
    (guardedDestination.exportAll (usersDisk none)
      [(usersFile, usersDocument "a"), (usersFile, usersDocument "b")]).1.readBytes
        (guardedDestination.target usersFile.place (usersDocument "a")) =
          .ok (Text.Utf8.encode "a") ∧
      guardedDestination.Denies (usersDisk none)
        [(usersFile, usersDocument "a"), (usersFile, usersDocument "b")] 1 := by
  obtain ⟨_, _, written, _⟩ := exportAll_guarded (rfl : guardedDestination.overwrite = false)
    (usersDisk none) [(usersFile, usersDocument "a"), (usersFile, usersDocument "b")]
  obtain ⟨read, others⟩ :=
    written 0 usersFile (usersDocument "a") rfl (.here (writeText_guarded "a"))
  exact ⟨read, others 1 (usersFile, usersDocument "b") (by omega) rfl rfl⟩

end RailSpec.Destination
