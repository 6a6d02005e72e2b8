import RailSpec.Proofs.Disk.Presence
import RailSpec.Proofs.Report.Isolation

/-!
What is said of documents that are not written. That a target exists is said just where something
exists that kept the document from being written, which need not be the target.
-/

namespace RailSpec.Destination

open Disk (Path Place Fault)

variable {destination : Destination} {disk moment : Disk} {exported before : Exported}
  {target : Path} {file : SchemaFile} {document : TypeSpec.Document} {fault : Fault}
  {written : Written} {said : Option Written} {escape : Escape} {lines : List Log.Line}
  {earlier later documents : List (SchemaFile × TypeSpec.Document)}

/-- What is said of a document whose target exists. -/
def takenText (target : Path) : String :=
  "File already exists: " ++ target.toString ++ ". Use --force to overwrite."

/-- What is said of a document that cannot be written for another reason. -/
def failedText (target : Path) (file : SchemaFile) (fault : Fault) : String :=
  "Failed to write " ++ target.toString ++ " (from " ++ file.relative ++ "): " ++ fault.message

/-- What is said of a document that a run finds on a disk, if anything is: that its target exists,
just where it does and may not be overwritten, or where something else exists that is in the way;
and of every other fault what it was, but for a null character. -/
structure Accounts (destination : Destination) (disk : Disk) (file : SchemaFile)
    (document : TypeSpec.Document) (said : Option Written) : Prop where
  taken : said = some (.refused (takenText (destination.target file.place document))) ↔
    destination.overwrite = false ∧ disk.Taken (destination.target file.place document) ∨
      disk.Collides (destination.target file.place document) destination.overwrite
  failed : ∀ after fault, disk.writeText (destination.target file.place document) document.content
      destination.overwrite = (after, .error fault) → fault ≠ .nullByte →
    said ≠ some (.refused (takenText (destination.target file.place document))) →
      said = some (.refused (failedText (destination.target file.place document) file fault))

/-! One document. -/

theorem takenText_start (target : Path) : ∃ rest, (takenText target).toList = 'F' :: 'i' :: rest := by
  have start : "File already exists: ".toList = 'F' :: 'i' :: "le already exists: ".toList := by
    decide +kernel
  unfold takenText
  rw [String.append_assoc]
  generalize target.toString ++ ". Use --force to overwrite." = rest
  rw [String.toList_append, start]
  exact ⟨_, rfl⟩

theorem failedText_start (target : Path) (file : SchemaFile) (fault : Fault) :
    ∃ rest, (failedText target file fault).toList = 'F' :: 'a' :: rest := by
  have start : "Failed to write ".toList = 'F' :: 'a' :: "iled to write ".toList := by
    decide +kernel
  unfold failedText
  rw [String.append_assoc, String.append_assoc, String.append_assoc, String.append_assoc]
  generalize target.toString ++ (" (from " ++ (file.relative ++ ("): " ++ fault.message))) = rest
  rw [String.toList_append, start]
  exact ⟨_, rfl⟩

theorem failedText_ne_takenText : failedText target file fault ≠ takenText target := by
  intro same
  obtain ⟨rest, taken⟩ := takenText_start target
  obtain ⟨rest', failed⟩ := failedText_start target file fault
  rw [← same, failed] at taken
  cases (List.cons.inj (List.cons.inj taken).2).1

theorem refusal_taken_iff :
    refusal target file fault = takenText target ↔ fault.isPresence = true := by
  unfold refusal
  split
  · rename_i presence
    exact ⟨fun _ => presence, fun _ => rfl⟩
  · rename_i other
    exact ⟨fun same => absurd same failedText_ne_takenText, fun presence => absurd presence other⟩

theorem refusal_failed (other : ¬ fault.isPresence = true) :
    refusal target file fault = failedText target file fault :=
  if_neg other

theorem record_not_refused {bytes : Nat} {message : String} :
    ((destination.record target file document bytes).map Written.file).toOption ≠
      some (.refused message) := by
  cases destination.record target file document bytes <;> exact nofun

/-- A document is said to exist just if its writing fails because something exists. -/
theorem writeDocument_taken_iff : (destination.writeDocument disk file document).2.toOption =
      some (.refused (takenText (destination.target file.place document))) ↔
    ∃ after fault, disk.writeText (destination.target file.place document) document.content
      destination.overwrite = (after, .error fault) ∧ fault.isPresence = true := by
  have step := writeDocument_step destination disk file document
  revert step
  generalize (destination.writeDocument disk file document).1 = after
  generalize (destination.writeDocument disk file document).2 = result
  intro step
  constructor
  · intro taken
    cases step with
    | written wrote => exact absurd taken record_not_refused
    | nullByte failed => cases taken
    | refused fault other failed =>
      have same := Written.refused.inj (Option.some.inj taken)
      exact ⟨after, fault, failed, refusal_taken_iff.mp same⟩
  · rintro ⟨after', fault', failed', presence⟩
    cases step with
    | written wrote => cases wrote.symm.trans failed'
    | nullByte failed =>
      cases failed.symm.trans failed'
      cases presence
    | refused fault other failed =>
      cases failed.symm.trans failed'
      rw [refusal_taken_iff.mpr presence]
      rfl

/-- What a run says of one document. -/
theorem writeDocument_accounts (destination : Destination) (disk : Disk) (file : SchemaFile)
    (document : TypeSpec.Document) : Accounts destination disk file document
      (destination.writeDocument disk file document).2.toOption := by
  refine ⟨writeDocument_taken_iff.trans Disk.write_presence_iff, ?_⟩
  intro after fault failed other unsaid
  have absent : ¬ fault.isPresence = true := fun presence =>
    unsaid (writeDocument_taken_iff.mpr ⟨after, fault, failed, presence⟩)
  rw [writeDocument_refused other failed, refusal_failed absent]
  rfl

theorem writeDocument_null {after : Disk}
    (failed : disk.writeText (destination.target file.place document) document.content
      destination.overwrite = (after, .error .nullByte)) :
    destination.writeDocument disk file document = (after, .error (.file .nullByte)) := by
  rw [writeDocument, failed]

/-! One document after the other. -/

/-- What becomes of documents behind others is what becomes of them on the disk that those leave. -/
theorem outcomes_append
    (done : destination.writeDocuments disk exported earlier = (moment, .ok (before, lines))) :
    destination.outcomes disk (earlier ++ later) =
      destination.outcomes disk earlier ++ destination.outcomes moment later := by
  induction earlier generalizing disk exported lines with
  | nil =>
    cases done
    rfl
  | cons pair rest ih =>
    obtain ⟨file, document⟩ := pair
    obtain ⟨next, written, more, here, there⟩ := writeDocuments_cons done
    rw [List.cons_append, outcomes_cons here, outcomes_cons here, ih there]
    rfl

theorem outcomes_head : (destination.outcomes disk ((file, document) :: later)).head? =
    (destination.writeDocument disk file document).2.toOption := by
  rw [outcomes]
  split <;> rename_i found <;> rw [found] <;> rfl

/-- What is said of a document is what is said of it on the disk that those before it leave. -/
theorem outcomes_moment
    (done : destination.writeDocuments disk exported earlier = (moment, .ok (before, lines))) :
    (destination.outcomes disk (earlier ++ (file, document) :: later))[earlier.length]? =
      (destination.writeDocument moment file document).2.toOption := by
  have through := (writeDocuments_outcomes done).1.length_eq
  rw [outcomes_append done, through, List.getElem?_append_right (Nat.le_refl _), Nat.sub_self,
    ← List.head?_eq_getElem?, outcomes_head]

/-- Documents behind others end a run if they end one from where those leave off. -/
theorem writeDocuments_ends
    (done : destination.writeDocuments disk exported earlier = (moment, .ok (before, lines)))
    (ended : (destination.writeDocuments moment before later).2 = .error escape) :
    (destination.writeDocuments disk exported (earlier ++ later)).2 = .error escape := by
  induction earlier generalizing disk exported lines with
  | nil =>
    cases done
    exact ended
  | cons pair rest ih =>
    obtain ⟨file, document⟩ := pair
    obtain ⟨next, written, more, here, there⟩ := writeDocuments_cons done
    have stopped := ih there
    rw [List.cons_append, writeDocuments, here]
    dsimp only
    split
    · rename_i found
      rw [found] at stopped
      exact stopped
    · rename_i found
      rw [found] at stopped
      cases stopped

theorem exportAll_ends
    (ended : (destination.writeDocuments disk { } documents).2 = .error escape) :
    (destination.exportAll disk documents).2 = .error escape := by
  unfold exportAll
  split
  · rename_i found
    rw [found] at ended
    exact ended
  · rename_i found
    rw [found] at ended
    cases ended

/-- What holds of a disk and is kept by every document holds of the disk that a run leaves. -/
theorem writeDocuments_keep {property : Disk → Prop} (start : property disk)
    (step : ∀ disk file document, property disk →
      property (destination.writeDocument disk file document).1) :
    property (destination.writeDocuments disk exported documents).1 := by
  induction documents generalizing disk exported with
  | nil => exact start
  | cons pair rest ih =>
    obtain ⟨file, document⟩ := pair
    have next := step disk file document start
    rcases writeDocuments_disk destination disk exported file document rest with
      ⟨after, escape, found, same⟩ | ⟨after, written, found, same⟩
    · rw [found] at next
      rw [same]
      exact next
    · rw [found] at next
      rw [same]
      exact ih next

theorem writeDocument_refuses (destination : Destination) (disk : Disk) (file : SchemaFile)
    (document : TypeSpec.Document) :
    (destination.writeDocument disk file document).1.refuses = disk.refuses := by
  have paved := Disk.makeDirectories_paved disk (destination.target file.place document).parent
  have ends := Disk.write_ends disk (destination.target file.place document)
    (Text.Utf8.encode document.content) destination.overwrite
  rw [writeDocument_disk]
  exact ends.refuses.trans paved.refuses

/-- A run that meets a null character in a path is ended by it. -/
theorem exportAll_nullByte {after : Disk}
    (done : destination.writeDocuments disk { } earlier = (moment, .ok (before, lines)))
    (failed : moment.writeText (destination.target file.place document) document.content
      destination.overwrite = (after, .error .nullByte)) :
    (destination.exportAll disk (earlier ++ (file, document) :: later)).2 =
      .error (.file .nullByte) := by
  have ended : (destination.writeDocuments moment before ((file, document) :: later)).2 =
      .error (.file .nullByte) := by
    rw [writeDocuments, writeDocument_null failed]
  exact exportAll_ends (writeDocuments_ends done ended)

/-- A disk as a system keeps it is one before every document. -/
theorem moment_regular (regular : disk.Regular)
    (done : destination.writeDocuments disk exported earlier = (moment, .ok (before, lines))) :
    moment.Regular := by
  have kept : (destination.writeDocuments disk exported earlier).1.Regular :=
    writeDocuments_keep regular fun _ file document regular =>
      writeDocument_regular destination file document regular
  rw [done] at kept
  exact kept

theorem moment_refusesOtherwise (otherwise : disk.RefusesOtherwise)
    (done : destination.writeDocuments disk exported earlier = (moment, .ok (before, lines))) :
    moment.RefusesOtherwise := by
  have kept : (destination.writeDocuments disk exported earlier).1.RefusesOtherwise := by
    refine writeDocuments_keep otherwise fun disk file document otherwise text => ?_
    rw [writeDocument_refuses]
    exact otherwise text
  rw [done] at kept
  exact kept

/-- An export says of a document that its target exists just if the target may not be overwritten
and exists, once its parents are there, on the disk that the documents before it leave, or if
something else that exists is in the way; and it says of every other document that is not written
why it could not be. A null character in a path ends it. On a disk as a system keeps it the target
is there before its parents are made or not at all, and what is in the way of the parents is a file
in the place of the nearest one. -/
theorem exportAll_refusals (destination : Destination) (disk : Disk)
    (documents : List (SchemaFile × TypeSpec.Document)) :
    (∀ exported lines, (destination.exportAll disk documents).2 = .ok (exported, lines) →
      (destination.outcomes disk documents).length = documents.length ∧
        exported.errors = (destination.outcomes disk documents).filterMap (·.message?)) ∧
    ∀ earlier file document later, documents = earlier ++ (file, document) :: later →
      ∀ moment before lines, destination.exportAll disk earlier = (moment, .ok (before, lines)) →
        ∀ target, target = destination.target file.place document →
          Accounts destination moment file document
              (destination.outcomes disk documents)[earlier.length]? ∧
            (moment.Collides target false → ¬ moment.Taken target) ∧
            (∀ after, moment.writeText target document.content destination.overwrite =
                (after, .error .nullByte) →
              (destination.exportAll disk documents).2 = .error (.file .nullByte)) ∧
            (disk.Regular → destination.Straight (file, document) →
              (moment.Taken target ↔ (moment.makeDirectories target.parent).2 = none ∧
                ∃ entry, moment.Holds target entry) ∧
              (disk.RefusesOtherwise → (moment.Obstructed target.parent ↔
                moment.refuses .makeDirectory target.parent.toString = none ∧
                  ∃ content, moment.Holds target.parent (.file content)))) := by
  refine ⟨fun exported lines done => ?_, ?_⟩
  · obtain ⟨more, run⟩ := exportAll_through done
    obtain ⟨tells, _, errors⟩ := writeDocuments_outcomes run
    rw [List.nil_append] at errors
    exact ⟨tells.length_eq.symm, errors⟩
  · rintro earlier file document later rfl moment before lines done target rfl
    obtain ⟨more, run⟩ := exportAll_through (congrArg Prod.snd done)
    rw [done] at run
    refine ⟨?_, Disk.Collides.not_taken, fun after failed => exportAll_nullByte run failed,
      fun regular straight => ?_⟩
    · rw [outcomes_moment run]
      exact writeDocument_accounts destination moment file document
    · obtain ⟨rooted, _, plain⟩ := moment_regular regular run
      have parent : (destination.target file.place document).parent =
          Path.ofPlace (destination.target file.place document).names.dropLast :=
        congrArg Path.parent straight.target_eq
      constructor
      · rw [straight.target_eq]
        exact Disk.taken_iff rooted straight.proper straight.named
      · intro otherwise
        rw [parent]
        exact Disk.obstructed_iff rooted plain (moment_refusesOtherwise otherwise run)
          straight.proper.dropLast

/-! A file in the place of the output directory, which keeps every document from being written, also
with permission to overwrite; and two documents of one name, of which the second finds the first. -/

def forcedDestination : Destination := { output := ["out"], root := [], overwrite := true }

def pluggedDisk : Disk :=
  { tree := ⟨[(["out"], .file (Text.Utf8.encode "x"))]⟩, marks := ["a"] }

theorem target_forced : forcedDestination.target usersFile.place (usersDocument "a") =
    ⟨"/", ["out", "Users.tsp"]⟩ := by
  have name : Path.ofString "Users.tsp" = ⟨"", ["Users.tsp"]⟩ := by decide +kernel
  exact target_joined rfl name

theorem writeText_plugged : pluggedDisk.writeText ⟨"/", ["out", "Users.tsp"]⟩ "a" true =
    (pluggedDisk, .error (.step .exists "/out")) := by
  have parent : Path.parent ⟨"/", ["out", "Users.tsp"]⟩ = ⟨"/", ["out"]⟩ := rfl
  have taken : pluggedDisk.makeDirectory ⟨"/", ["out"]⟩ = .error (.step .exists "/out") := rfl
  have above : pluggedDisk.makeDirectories ⟨"/", ["out"]⟩ =
      (pluggedDisk, some (.step .exists "/out")) := by
    rw [Disk.makeDirectories, taken]
    rfl
  rw [Disk.writeText, Disk.write, parent, above]

/-- A document may be overwritten and its target is not there, and yet it is said to exist. -/
theorem outcomes_plugged : forcedDestination.overwrite = true ∧
    pluggedDisk.LeadsNowhere (forcedDestination.target usersFile.place (usersDocument "a")) ∧
    forcedDestination.outcomes pluggedDisk [(usersFile, usersDocument "a")] = [.refused
      (takenText (forcedDestination.target usersFile.place (usersDocument "a")))] := by
  have refused : forcedDestination.writeDocument pluggedDisk usersFile (usersDocument "a") =
      (pluggedDisk, .ok (.refused (refusal
        (forcedDestination.target usersFile.place (usersDocument "a")) usersFile
          (.step .exists "/out")))) := by
    refine writeDocument_refused nofun ?_
    rw [target_forced]
    exact writeText_plugged
  refine ⟨rfl, ?_, ?_⟩
  · rw [target_forced]
    exact .inr (.inr rfl)
  · rw [outcomes_cons refused, refusal_taken_iff.mpr rfl]
    rfl

theorem writeDocument_first : guardedDestination.writeDocument (usersDisk none) usersFile
      (usersDocument "a") = (usersDisk (some "a"), .ok (.file (usersRecord "a"))) := by
  have written : (usersDisk none).writeText ⟨"/", ["Users.tsp"]⟩ (usersDocument "a").content
      guardedDestination.overwrite =
        (usersDisk (some "a"), .ok (Text.Utf8.encode "a").size) := by
    have parent : Path.parent ⟨"/", ["Users.tsp"]⟩ = ⟨"/", []⟩ := rfl
    rw [Disk.writeText, Disk.write, parent, makeDirectories_users]
    rfl
  have recorded : guardedDestination.record ⟨"/", ["Users.tsp"]⟩ usersFile (usersDocument "a")
      (Text.Utf8.encode "a").size = .ok (usersRecord "a") := by
    decide +kernel
  have target : guardedDestination.target usersFile.place (usersDocument "a") =
      ⟨"/", ["Users.tsp"]⟩ := target_users "a"
  rw [writeDocument, target, written]
  dsimp only
  rw [recorded]
  rfl

theorem pluggedDisk_regular : pluggedDisk.Regular := by
  refine ⟨?_, ?_, fun text => nofun⟩
  · exact Disk.Tree.rooted_empty.put (List.cons_ne_nil _ _) rfl nofun
  · exact List.forall_mem_singleton.mpr (by decide)

theorem straight_forced : forcedDestination.Straight (usersFile, usersDocument "a") := by
  refine ⟨?_, ?_, ?_⟩ <;> rw [target_forced]
  · exact .of_text "out/Users.tsp" (by decide +kernel)
  · exact List.cons_ne_nil _ _

/-- The second document is refused for the first, which is not there when the run begins; and a
file in the place of the output directory is in the way of a document. -/
theorem exportAll_refusals_users :
    (guardedDestination.outcomes (usersDisk none)
        [(usersFile, usersDocument "a"), (usersFile, usersDocument "b")])[1]? =
      some (.refused (takenText ⟨"/", ["Users.tsp"]⟩)) ∧
    pluggedDisk.Obstructed ⟨"/", ["out"]⟩ := by
  have target : guardedDestination.target usersFile.place (usersDocument "b") =
      ⟨"/", ["Users.tsp"]⟩ := target_users "b"
  have first : guardedDestination.exportAll (usersDisk none) [(usersFile, usersDocument "a")] =
      (usersDisk (some "a"), .ok (⟨[usersRecord "a"], []⟩,
        [writtenLine (.file (usersRecord "a")), exportedLine ⟨[usersRecord "a"], []⟩])) := by
    rw [exportAll, writeDocuments, writeDocument_first]
    rfl
  have held : (usersDisk (some "a")).Holds ⟨"/", ["Users.tsp"]⟩ (.file (Text.Utf8.encode "a")) :=
    ⟨by decide, rfl⟩
  have taken : (usersDisk (some "a")).Taken ⟨"/", ["Users.tsp"]⟩ :=
    ⟨_, _, makeDirectories_users _, held⟩
  have plugged : pluggedDisk.Holds ⟨"/", ["out"]⟩ (.file (Text.Utf8.encode "x")) :=
    ⟨by decide, rfl⟩
  obtain ⟨_, each⟩ := exportAll_refusals guardedDestination (usersDisk none)
    [(usersFile, usersDocument "a"), (usersFile, usersDocument "b")]
  obtain ⟨accounts, _⟩ := each [(usersFile, usersDocument "a")] usersFile (usersDocument "b") [] rfl
    _ _ _ first _ rfl
  have said := accounts.taken.mpr
  rw [target] at said
  have otherwise : pluggedDisk.RefusesOtherwise := by
    intro text same
    cases same
  obtain ⟨_, alone⟩ := exportAll_refusals forcedDestination pluggedDisk
    [(usersFile, usersDocument "a")]
  obtain ⟨_, _, _, regular⟩ := alone [] usersFile (usersDocument "a") [] rfl _ _ _ rfl _
    target_forced.symm
  obtain ⟨_, obstructed⟩ := regular pluggedDisk_regular straight_forced
  exact ⟨said (.inl ⟨rfl, taken⟩), (obstructed otherwise).mpr ⟨rfl, _, plugged⟩⟩

end RailSpec.Destination
