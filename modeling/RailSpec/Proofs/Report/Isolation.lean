import RailSpec.Proofs.Disk.Wider.File
import RailSpec.Proofs.Report.Guarded

/-!
What a refused document leaves for those after it. Nothing but directories on the way to its target,
so that every document with none of them in its way is written as without it.
-/

namespace RailSpec.Disk

/-- A disk as a system keeps it. -/
structure Regular (disk : Disk) : Prop where
  rooted : disk.tree.Rooted
  marks : disk.MarksClean
  plain : disk.RefusesPlainly

end RailSpec.Disk

namespace RailSpec.Destination

open Disk (Path Place Fault Widens Together Alike)

variable {destination : Destination} {disk wider after : Disk} {extra : Place → Prop}
  {file : SchemaFile} {document : TypeSpec.Document} {bad pair : SchemaFile × TypeSpec.Document}
  {earlier later documents : List (SchemaFile × TypeSpec.Document)} {message : String}

/-- A document whose target is written from the root straight down to a file. -/
structure Straight (destination : Destination) (pair : SchemaFile × TypeSpec.Document) : Prop where
  root : (destination.target pair.1.place pair.2).root = "/"
  proper : Path.IsPlace (destination.target pair.1.place pair.2).names
  named : (destination.target pair.1.place pair.2).names ≠ []

/-- A document that needs no file at a place where another one needs a directory. -/
def Apart (destination : Destination) (disk : Disk) (bad pair : SchemaFile × TypeSpec.Document) :
    Prop :=
  disk.Clears (· <+: (destination.target bad.1.place bad.2).names.dropLast)
    (destination.target pair.1.place pair.2).names

theorem Straight.target_eq (straight : destination.Straight pair) :
    destination.target pair.1.place pair.2 =
      Path.ofPlace (destination.target pair.1.place pair.2).names := by
  have root := straight.root
  generalize destination.target pair.1.place pair.2 = target at root
  obtain ⟨start, names⟩ := target
  obtain rfl : start = "/" := root
  rfl

theorem writeDocument_regular (destination : Destination) (file : SchemaFile)
    (document : TypeSpec.Document) (regular : disk.Regular) :
    (destination.writeDocument disk file document).1.Regular := by
  have paved := Disk.makeDirectories_paved disk (destination.target file.place document).parent
  have ends := Disk.write_ends disk (destination.target file.place document)
    (Text.Utf8.encode document.content) destination.overwrite
  refine ⟨?_, writeDocument_marks destination file document regular.marks, ?_⟩
  · rw [writeDocument_disk]
    exact Disk.write_rooted regular.rooted _ _ _
  · rw [writeDocument_disk]
    intro text
    rw [ends.refuses, paved.refuses]
    exact regular.plain text

theorem writeDocument_here (destination : Destination) (disk : Disk) (file : SchemaFile)
    (document : TypeSpec.Document) :
    (destination.writeDocument disk file document).1.here = disk.here := by
  obtain ⟨result, writes⟩ := writeDocument_writes destination disk file document
  exact writes.here_eq

theorem writeDocument_marks_eq (destination : Destination) (disk : Disk) (file : SchemaFile)
    (document : TypeSpec.Document) :
    (destination.writeDocument disk file document).1.marks = disk.marks := by
  have paved := Disk.makeDirectories_paved disk (destination.target file.place document).parent
  have ends := Disk.write_ends disk (destination.target file.place document)
    (Text.Utf8.encode document.content) destination.overwrite
  rw [writeDocument_disk]
  exact ends.marks.trans paved.marks

theorem writeDocument_refused {fault : Fault} (other : fault ≠ .nullByte)
    (refused : disk.writeText (destination.target file.place document) document.content
      destination.overwrite = (after, .error fault)) :
    destination.writeDocument disk file document =
      (after, .ok (.refused (refusal (destination.target file.place document) file fault))) := by
  rw [writeDocument, refused]
  cases fault <;> first | rfl | exact absurd rfl other

theorem writeDocument_paved (done : destination.writeDocument disk file document =
    (after, .ok (.refused message))) :
    disk.Paved (destination.target file.place document).parent after := by
  have step := writeDocument_step destination disk file document
  rw [done] at step
  dsimp only at step
  generalize same : Except.ok (Written.refused message) = result at step
  cases step with
  | written =>
    obtain ⟨_, _, wrong⟩ := map_ok same.symm
    cases wrong
  | nullByte => cases same
  | refused fault other failed => exact Disk.write_paved failed

/-- Outcomes of a document on two disks: the same, but for the words of a refusal. -/
def Agree (first second : Except Escape Written) : Prop :=
  first.map (·.record?) = second.map (·.record?)

/-- A document comes to the same on a disk and a wider one if none of the further directories is in
its way. -/
theorem writeDocument_follows (widens : Widens extra disk wider) (regular : disk.Regular)
    (straight : destination.Straight (file, document))
    (clears : disk.Clears extra (destination.target file.place document).names) :
    Widens extra (destination.writeDocument disk file document).1
        (destination.writeDocument wider file document).1 ∧
      Agree (destination.writeDocument disk file document).2
        (destination.writeDocument wider file document).2 := by
  have together := Disk.write_follows widens regular.plain straight.proper straight.named clears
    (Text.Utf8.encode document.content) destination.overwrite regular.rooted
  rw [← straight.target_eq] at together
  obtain ⟨widens', alike⟩ := together
  refine ⟨by rw [writeDocument_disk, writeDocument_disk]; exact widens', ?_⟩
  cases here : disk.writeText (destination.target file.place document) document.content
      destination.overwrite with
  | mk next result =>
  cases there : wider.writeText (destination.target file.place document) document.content
      destination.overwrite with
  | mk next' result' =>
  rw [Disk.writeText] at here there
  rw [here, there] at alike
  cases alike with
  | same =>
    unfold writeDocument Disk.writeText
    dsimp only
    rw [here, there]
    cases result with
    | ok bytes => rfl
    | error fault => cases fault <;> rfl
  | refused plain otherPlain =>
    rw [writeDocument_refused plain here, writeDocument_refused otherPlain there]
    rfl

/-- What is recorded of documents is the same on a disk and a wider one. -/
theorem outcomes_follow (widens : Widens extra disk wider) (regular : disk.Regular)
    (straight : ∀ pair ∈ documents, destination.Straight pair)
    (clears : ∀ pair ∈ documents,
      disk.Clears extra (destination.target pair.1.place pair.2).names) :
    (destination.outcomes disk documents).map (·.record?) =
      (destination.outcomes wider documents).map (·.record?) := by
  induction documents generalizing disk wider with
  | nil => rfl
  | cons pair rest ih =>
    obtain ⟨file, document⟩ := pair
    obtain ⟨first, others⟩ := List.forall_mem_cons.mp straight
    obtain ⟨free, frees⟩ := List.forall_mem_cons.mp clears
    obtain ⟨widens', agree⟩ := writeDocument_follows widens regular first free
    have regular' := writeDocument_regular destination file document regular
    have later (other) (member : other ∈ rest) :=
      (frees other member).of_eq (writeDocument_here destination disk file document)
        (writeDocument_marks_eq destination disk file document)
    cases here : destination.writeDocument disk file document with
    | mk next result =>
    cases there : destination.writeDocument wider file document with
    | mk next' result' =>
    rw [here, there] at widens' agree
    rw [here] at regular' later
    cases result with
    | error escape =>
      cases result' with
      | error escape' => rw [outcomes, outcomes, here, there]
      | ok written => cases agree
    | ok written =>
      cases result' with
      | error escape => cases agree
      | ok written' =>
        have same : written.record? = written'.record? := Except.ok.inj agree
        rw [outcomes_cons here, outcomes_cons there, List.map_cons, List.map_cons, same,
          ih widens' regular' others later]

/-- The documents behind one that was refused find a disk that is wider by directories alone. -/
theorem outcomes_refused (regular : disk.Regular)
    (refused : destination.writeDocument disk file document = (after, .ok (.refused message)))
    (straight : destination.Straight (file, document))
    (others : ∀ pair ∈ later,
      destination.Straight pair ∧ destination.Apart disk (file, document) pair) :
    (destination.outcomes disk later).map (·.record?) =
      (destination.outcomes after later).map (·.record?) := by
  have paved := writeDocument_paved refused
  have down : Path.parentName ∉ (destination.target file.place document).names.dropLast :=
    straight.proper.dropLast.noParent
  rw [straight.target_eq] at paved
  exact outcomes_follow (paved.widens down) regular (fun pair member => (others pair member).1)
    fun pair member => (others pair member).2

/-- A document that was refused changes nothing about what is recorded of those behind it, unless
one of them needs a file where it needs a directory. -/
theorem outcomes_isolated (regular : disk.Regular)
    (refused : (destination.outcomes disk (earlier ++ bad :: later))[earlier.length]? =
      some (.refused message))
    (straight : destination.Straight bad)
    (others : ∀ pair ∈ later, destination.Straight pair ∧ destination.Apart disk bad pair) :
    (destination.outcomes disk (earlier ++ later)).map (·.record?) =
      ((destination.outcomes disk (earlier ++ bad :: later)).map (·.record?)).eraseIdx
        earlier.length := by
  induction earlier generalizing disk with
  | nil =>
    obtain ⟨file, document⟩ := bad
    rw [List.nil_append] at refused ⊢
    rw [List.nil_append]
    cases here : destination.writeDocument disk file document with
    | mk next result =>
    cases result with
    | error escape =>
      rw [outcomes, here] at refused
      cases refused
    | ok written =>
      rw [outcomes_cons here] at refused ⊢
      obtain rfl : written = .refused message := Option.some.inj refused
      exact outcomes_refused regular here straight others
  | cons pair rest ih =>
    obtain ⟨file, document⟩ := pair
    have regular' := writeDocument_regular destination file document regular
    have apart (other) (member : other ∈ later) :=
      (others other member).2.of_eq (writeDocument_here destination disk file document)
        (writeDocument_marks_eq destination disk file document)
    cases here : destination.writeDocument disk file document with
    | mk next result =>
    rw [here] at regular' apart
    cases result with
    | error escape =>
      rw [List.cons_append, outcomes, here] at refused
      cases refused
    | ok written =>
      rw [List.cons_append, outcomes_cons here] at refused
      rw [List.cons_append, List.cons_append, outcomes_cons here, outcomes_cons here,
        List.map_cons, List.map_cons, List.length_cons, List.eraseIdx_cons_succ,
        ih regular' refused fun other member => ⟨(others other member).1, apart other member⟩]

/-- An export is through with an outcome of every document, in order, or is ended by a document
whose path holds a null character or leads out of the output directory. A document that was refused
changes nothing about the records of those behind it, unless one of them needs a file where it needs
a directory. -/
theorem exportAll_isolated (destination : Destination) (regular : disk.Regular)
    (documents : List (SchemaFile × TypeSpec.Document)) :
    (∀ escape, (destination.exportAll disk documents).2 = .error escape →
      ∃ pair, documents[(destination.outcomes disk documents).length]? = some pair ∧
        ¬ destination.Recordable pair) ∧
    (∀ exported lines, (destination.exportAll disk documents).2 = .ok (exported, lines) →
      List.Forall₂ (fun pair => Tells destination pair.1 pair.2) documents
          (destination.outcomes disk documents) ∧
        exported.files = (destination.outcomes disk documents).filterMap (·.record?) ∧
        exported.errors = (destination.outcomes disk documents).filterMap (·.message?) ∧
        exported.files.length + exported.errors.length = documents.length ∧
        (exported.succeeded = true ↔ exported.errors = [])) ∧
    ∀ earlier bad later message, documents = earlier ++ bad :: later →
      (destination.outcomes disk documents)[earlier.length]? = some (.refused message) →
      destination.Straight bad →
      (∀ pair ∈ later, destination.Straight pair ∧ destination.Apart disk bad pair) →
      (destination.outcomes disk (earlier ++ later)).map (·.record?) =
        ((destination.outcomes disk documents).map (·.record?)).eraseIdx earlier.length := by
  refine ⟨fun escape ended => ?_, fun exported lines done => ?_, ?_⟩
  · have stopped : (destination.writeDocuments disk { } documents).2 = .error escape := by
      unfold exportAll at ended
      split at ended
      · rename_i found
        rw [found]
        exact ended
      · cases ended
    exact writeDocuments_ended regular.marks stopped
  · obtain ⟨more, run⟩ := exportAll_through done
    obtain ⟨tells, files, errors⟩ := writeDocuments_outcomes run
    rw [List.nil_append] at files errors
    refine ⟨tells, files, errors, ?_, List.isEmpty_iff⟩
    rw [files, errors, Written.length_record_message, tells.length_eq]
  · rintro earlier bad later message rfl refused straight others
    exact outcomes_isolated regular refused straight others

/-! A document whose name holds a null character, in front of another one; and two documents of
which the first is refused, because its file is there. -/

def nullDocument : TypeSpec.Document :=
  TypeSpec.Frame.enumDocument { } (Schema.namedEnum "a\x00b" [])

theorem target_null : guardedDestination.target usersFile.place nullDocument =
    ⟨"/", ["A\x00b.tsp"]⟩ := by
  have name : Path.ofString nullDocument.name = ⟨"", ["A\x00b.tsp"]⟩ := by decide +kernel
  exact target_joined rfl name

theorem write_null (content : ByteArray) :
    (usersDisk none).write ⟨"/", ["A\x00b.tsp"]⟩ content false =
      (usersDisk none, .error .nullByte) := by
  have parent : Path.parent ⟨"/", ["A\x00b.tsp"]⟩ = ⟨"/", []⟩ := rfl
  have null : Path.hasNull ⟨"/", ["A\x00b.tsp"]⟩ = true := by decide +kernel
  have temporary : ((usersDisk none).temporary ⟨"/", ["A\x00b.tsp"]⟩ "a").hasNull = true := by
    decide +kernel
  have marks : (usersDisk none).marks = ["a"] := rfl
  rw [Disk.write, parent, makeDirectories_users]
  dsimp only
  rw [Disk.present, if_pos null, marks, Disk.createTemporary, if_pos temporary]
  rfl

/-- A null character in one name keeps every later document from being written. -/
theorem exportAll_null :
    guardedDestination.exportAll (usersDisk none)
        [(usersFile, nullDocument), (usersFile, usersDocument "a")] =
      (usersDisk none, .error (.file .nullByte)) := by
  have first : guardedDestination.writeDocument (usersDisk none) usersFile nullDocument =
      (usersDisk none, .error (.file .nullByte)) := by
    rw [writeDocument, target_null, Disk.writeText]
    rw [guardedDestination, write_null]
  rw [exportAll, writeDocuments, first]

theorem usersDisk_regular (content : String) : (usersDisk (some content)).Regular := by
  refine ⟨?_, ?_, fun text => nofun⟩
  · exact Disk.Tree.rooted_empty.put (List.cons_ne_nil _ _) rfl nofun
  · exact List.forall_mem_singleton.mpr (by decide)

def planetsDocument : TypeSpec.Document :=
  { name := "Planets.tsp", content := "" }

theorem target_planets : guardedDestination.target usersFile.place planetsDocument =
    ⟨"/", ["Planets.tsp"]⟩ := by
  have name : Path.ofString planetsDocument.name = ⟨"", ["Planets.tsp"]⟩ := by decide +kernel
  exact target_joined rfl name

theorem writeText_taken_users (content : String) :
    (usersDisk (some content)).writeText ⟨"/", ["Users.tsp"]⟩ content false =
      (usersDisk (some content), .error (.present "/Users.tsp")) := by
  have parent : Path.parent ⟨"/", ["Users.tsp"]⟩ = ⟨"/", []⟩ := rfl
  rw [Disk.writeText, Disk.write, parent, makeDirectories_users]
  rfl

/-- What is recorded of the second document is what is recorded of it alone. -/
theorem exportAll_isolated_users :
    (guardedDestination.outcomes (usersDisk (some "a")) [(usersFile, planetsDocument)]).map
        (·.record?) =
      ((guardedDestination.outcomes (usersDisk (some "a"))
        [(usersFile, usersDocument "a"), (usersFile, planetsDocument)]).map
          (·.record?)).eraseIdx 0 := by
  have users : guardedDestination.target usersFile.place (usersDocument "a") =
      ⟨"/", ["Users.tsp"]⟩ := target_users "a"
  have refused : guardedDestination.writeDocument (usersDisk (some "a")) usersFile
      (usersDocument "a") = (usersDisk (some "a"), .ok (.refused (refusal
        (guardedDestination.target usersFile.place (usersDocument "a")) usersFile
          (.present "/Users.tsp")))) := by
    refine writeDocument_refused nofun ?_
    rw [users]
    exact writeText_taken_users "a"
  have usersPlace : Path.IsPlace ["Users.tsp"] := .of_text "Users.tsp" (by decide +kernel)
  have planetsPlace : Path.IsPlace ["Planets.tsp"] := .of_text "Planets.tsp" (by decide +kernel)
  have bad : guardedDestination.Straight (usersFile, usersDocument "a") := by
    refine ⟨?_, ?_, ?_⟩ <;> rw [users]
    · exact usersPlace
    · exact List.cons_ne_nil _ _
  have planets : guardedDestination.Straight (usersFile, planetsDocument) := by
    refine ⟨?_, ?_, ?_⟩ <;> rw [target_planets]
    · exact planetsPlace
    · exact List.cons_ne_nil _ _
  have apart : guardedDestination.Apart (usersDisk (some "a")) (usersFile, usersDocument "a")
      (usersFile, planetsDocument) := by
    rw [Apart, users, target_planets]
    refine ⟨by decide, fun mark _ => ?_⟩
    rw [Disk.temporary_resolve]
    · simp
    · exact List.not_mem_nil
  obtain ⟨_, _, isolated⟩ := exportAll_isolated guardedDestination (usersDisk_regular "a")
    [(usersFile, usersDocument "a"), (usersFile, planetsDocument)]
  exact isolated [] _ _ _ rfl (by rw [outcomes_cons refused]; rfl) bad
    (List.forall_mem_singleton.mpr ⟨planets, apart⟩)

end RailSpec.Destination
