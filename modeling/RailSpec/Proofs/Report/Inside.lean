import RailSpec.Proofs.Disk.Place
import RailSpec.Proofs.Report.Guarded
import RailSpec.Proofs.TypeSpec.Name

/-!
Where an export writes. Documents whose names do not lead out of the output directory change nothing
but what is in it, and make no other directories than those above it that were missing.
-/

namespace RailSpec.Disk

/-- A disk as another one outside of a directory, but for new directories above it. -/
structure Within (directory : Place) (disk after : Disk) : Prop where
  here : after.here = disk.here
  cases : ∀ place, after.tree.found? place = disk.tree.found? place ∨ directory <+: place ∨
    place <+: directory ∧ disk.tree.found? place = none ∧
      after.tree.found? place = some .directory

namespace Within

variable {directory : Place} {disk next after : Disk}

theorem refl (directory : Place) (disk : Disk) : Within directory disk disk :=
  ⟨rfl, fun _ => .inl rfl⟩

theorem trans (first : Within directory disk next) (second : Within directory next after) :
    Within directory disk after := by
  refine ⟨second.here.trans first.here, fun place => ?_⟩
  rcases second.cases place with kept | below | ⟨above, vacant, new⟩
  · rw [kept]
    exact first.cases place
  · exact .inr (.inl below)
  · rcases first.cases place with kept | below | ⟨_, _, early⟩
    · exact .inr (.inr ⟨above, kept.symm.trans vacant, new⟩)
    · exact .inr (.inl below)
    · cases vacant.symm.trans early

end Within

end RailSpec.Disk

namespace RailSpec.Destination

open Disk (Path Place Within)

variable {destination : Destination} {disk : Disk} {file : SchemaFile}
  {document : TypeSpec.Document} {documents : List (SchemaFile × TypeSpec.Document)}
  {schema place : Place}

/-- The directory of a schema file's documents lies below the output directory, straight down. -/
theorem directory_below (destination : Destination) (proper : Path.IsPlace schema) :
    ∃ rest, rest <:+ schema.dropLast ∧
      destination.directory schema = Path.ofPlace (destination.output ++ rest) := by
  unfold directory
  dsimp only
  split
  · exact ⟨[], List.nil_suffix, by rw [List.append_nil]⟩
  · rename_i elsewhere
    obtain ⟨apart, inside⟩ := not_or.mp (mt (Bool.or_eq_true ..).mpr elsewhere)
    obtain ⟨rest, down, way⟩ := Path.wayText_down (eq_false_of_ne_true inside)
    refine ⟨rest, ⟨destination.root, down.symm⟩, ?_⟩
    cases rest with
    | nil =>
      rw [way] at apart
      exact absurd rfl apart
    | cons name rest =>
      have names : ∀ other ∈ name :: rest, Path.IsName other := fun other member =>
        proper.dropLast.names other (down ▸ List.mem_append_right _ member)
      rw [way, Path.toString_relative, Path.ofString_joined names]
      rfl

/-- A document whose name leads from its directory to a file, by no step out of the output
directory. -/
structure Confined (destination : Destination) (pair : SchemaFile × TypeSpec.Document) : Prop where
  relative : (Path.ofString pair.2.name).isAbsolute = false
  named : (Path.ofString pair.2.name).names ≠ []
  below : ∀ front, front <+: (Path.ofString pair.2.name).names →
    destination.output <+: Path.follow (destination.directory pair.1.place).names front

theorem target_confined (proper : Path.IsPlace file.place)
    (confined : destination.Confined (file, document)) : destination.target file.place document =
      ⟨"/", (destination.directory file.place).names ++ (Path.ofString document.name).names⟩ := by
  obtain ⟨rest, _, below⟩ := directory_below destination proper
  rw [target, Path.join, if_neg (by simp [confined.relative]), below]
  rfl

theorem directory_noParent (output : Path.IsPlace destination.output)
    (proper : Path.IsPlace schema) : Path.parentName ∉ (destination.directory schema).names := by
  obtain ⟨rest, within, below⟩ := directory_below destination proper
  intro member
  rw [below] at member
  rcases List.mem_append.mp member with above | behind
  · exact output.noParent above
  · exact proper.dropLast.noParent (within.subset behind)

/-- The directory of a document is at the place of its names. -/
theorem follow_directory (output : Path.IsPlace destination.output) (proper : Path.IsPlace schema)
    (names : List String) : Path.follow [] ((destination.directory schema).names ++ names) =
      Path.follow (destination.directory schema).names names := by
  rw [Path.follow_append, Path.follow_down (directory_noParent output proper), List.nil_append]

theorem Confined.of_noParent {pair : SchemaFile × TypeSpec.Document}
    (proper : Path.IsPlace pair.1.place)
    (relative : (Path.ofString pair.2.name).isAbsolute = false)
    (named : (Path.ofString pair.2.name).names ≠ [])
    (down : Path.parentName ∉ (Path.ofString pair.2.name).names) : destination.Confined pair := by
  refine ⟨relative, named, fun front within => ?_⟩
  obtain ⟨rest, _, below⟩ := directory_below destination proper
  have inside : Path.parentName ∉ front := fun member => down (within.subset member)
  rw [Path.follow_down inside, below]
  exact (List.prefix_append _ _).trans (List.prefix_append _ _)

/-- The document of a table or enum whose name has no slash is confined. -/
theorem Confined.of_fileName {pair : SchemaFile × TypeSpec.Document} {frame : TypeSpec.Frame}
    {name : String} (proper : Path.IsPlace pair.1.place)
    (named : pair.2.name = frame.fileName (TypeSpec.className name))
    (noSlash : '/' ∉ name.toList) (plain : '/' ∉ frame.fileExtension.toList)
    (long : 2 < frame.fileExtension.length) : destination.Confined pair := by
  have length : 2 < pair.2.name.length := by
    rw [named, TypeSpec.Frame.fileName, String.length_append]
    omega
  have apart (text : String) (short : text.length ≤ 2) : pair.2.name ≠ text := by
    rintro same
    rw [same] at length
    omega
  have isName : Path.IsName pair.2.name := by
    refine ⟨?_, named ▸ TypeSpec.fileName_noSlash noSlash plain⟩
    have point : pair.2.name.toList ≠ ['.'] := fun same =>
      apart "." (by decide) (String.toList_inj.mp same)
    simpa [Path.isName] using ⟨apart "" (by decide), point⟩
  have path : Path.ofString pair.2.name = ⟨"", [pair.2.name]⟩ :=
    Path.ofString_joined (List.forall_mem_singleton.mpr isName)
  refine .of_noParent proper (by rw [path]; rfl) (by rw [path]; exact List.cons_ne_nil _ _) ?_
  rw [path, List.mem_singleton]
  exact Ne.symm (apart Path.parentName (by decide))

section Confined

variable (output : Path.IsPlace destination.output) (proper : Path.IsPlace file.place)
  (confined : destination.Confined (file, document))
include output proper confined

theorem placeOf_confined (here : Place) :
    destination.output <+: destination.placeOf here (file, document) := by
  rw [placeOf, target_confined proper confined, Path.resolve_root,
    follow_directory output proper]
  exact confined.below _ List.prefix_rfl

/-- On its way a target passes the output directory, places above it and places in it. -/
theorem paves_confined (paves : disk.Paves (destination.target file.place document) place) :
    destination.output <+: place ∨ place <+: destination.output := by
  obtain ⟨front, within, rfl, _⟩ := paves
  rw [target_confined proper confined] at within ⊢
  rw [Path.resolve_root]
  rcases List.prefix_or_prefix_of_prefix within (List.prefix_append _ _) with above | behind
  · obtain ⟨rest, _, below⟩ := directory_below destination proper
    have down : Path.parentName ∉ front := fun member =>
      directory_noParent output proper (above.subset member)
    rw [Path.follow_down down, List.nil_append]
    rw [below] at above
    exact List.prefix_or_prefix_of_prefix (List.prefix_append _ _) above
  · obtain ⟨names, rfl⟩ := behind
    rw [follow_directory output proper]
    exact .inl (confined.below names ((List.prefix_append_right_inj _).mp within))

/-- A temporary file of a document is in the output directory too. -/
theorem temporary_confined (disk : Disk) (mark : String) : destination.output <+:
    (disk.temporary (destination.target file.place document) mark).resolve disk.here := by
  have parent : (destination.target file.place document).parent.resolve disk.here =
      Path.follow (destination.directory file.place).names
        (Path.ofString document.name).names.dropLast := by
    rw [target_confined proper confined, ← follow_directory output proper,
      ← List.dropLast_append_of_ne_nil confined.named]
    rfl
  have down := Path.follow_noParent (directory_noParent output proper)
    (Path.ofString document.name).names.dropLast
  rw [Disk.temporary_resolve mark (parent ▸ down), parent]
  exact (confined.below _ (List.dropLast_prefix _)).trans (List.prefix_append _ _)

theorem writeDocument_within (disk : Disk) :
    Within destination.output disk (destination.writeDocument disk file document).1 := by
  obtain ⟨result, writes⟩ := writeDocument_writes destination disk file document
  refine ⟨writes.here_eq, fun place => ?_⟩
  by_cases kept : (destination.writeDocument disk file document).1.tree.found? place =
      disk.tree.found? place
  · exact .inl kept
  · rw [writeDocument_disk] at kept ⊢
    right
    rcases Disk.write_changes kept with rfl | ⟨vacant, new, paves⟩
    · exact .inl (placeOf_confined output proper confined disk.here)
    · exact (paves_confined output proper confined
        (paves.of_front (List.dropLast_prefix _))).imp_right
        fun above => ⟨above, vacant, new⟩

end Confined

theorem writeDocuments_within (output : Path.IsPlace destination.output)
    (proper : ∀ pair ∈ documents, Path.IsPlace pair.1.place)
    (confined : ∀ pair ∈ documents, destination.Confined pair) (disk : Disk)
    (exported : Exported) : Within destination.output disk
      (destination.writeDocuments disk exported documents).1 := by
  induction documents generalizing disk exported with
  | nil => exact .refl _ disk
  | cons pair rest ih =>
    obtain ⟨file, document⟩ := pair
    obtain ⟨firstProper, laterProper⟩ := List.forall_mem_cons.mp proper
    obtain ⟨firstConfined, laterConfined⟩ := List.forall_mem_cons.mp confined
    have first := writeDocument_within output firstProper firstConfined disk
    rcases writeDocuments_disk destination disk exported file document rest with
      ⟨next, escape, found, same⟩ | ⟨next, written, found, same⟩
    · rw [found] at first
      rw [same]
      exact first
    · rw [found] at first
      rw [same]
      exact first.trans (ih laterProper laterConfined next (exported.add written))

def nestedDestination : Destination := { output := ["a", "out"], root := [] }

def outDestination : Destination := { output := ["out"], root := [] }

def strayDocument : TypeSpec.Document :=
  TypeSpec.Frame.enumDocument { } (Schema.namedEnum "../x" [])

theorem target_nested (content : String) :
    nestedDestination.target usersFile.place (usersDocument content) =
      ⟨"/", ["a", "out", "Users.tsp"]⟩ := by
  have name : Path.ofString "Users.tsp" = ⟨"", ["Users.tsp"]⟩ := by decide +kernel
  exact target_joined rfl name

theorem target_stray : outDestination.target usersFile.place strayDocument =
    ⟨"/", ["out", "..", "x.tsp"]⟩ := by
  have name : Path.ofString strayDocument.name = ⟨"", ["..", "x.tsp"]⟩ := by decide +kernel
  exact target_joined rfl name

theorem makeDirectories_nested : (usersDisk none).makeDirectories ⟨"/", ["a", "out"]⟩ =
    ({ usersDisk none with
      tree := ⟨[(["a", "out"], .directory), (["a"], .directory)]⟩ }, none) := by
  have missing : (usersDisk none).makeDirectory ⟨"/", ["a", "out"]⟩ =
      .error (.step .missing "/a/out") := rfl
  have parent : Path.parent ⟨"/", ["a", "out"]⟩ = ⟨"/", ["a"]⟩ := rfl
  have above : (usersDisk none).makeDirectory ⟨"/", ["a"]⟩ =
      .ok { usersDisk none with tree := ⟨[(["a"], .directory)]⟩ } := rfl
  rw [Disk.makeDirectories, missing, parent, Disk.makeDirectories, above]
  rfl

theorem makeDirectories_stray : (usersDisk none).makeDirectories ⟨"/", ["out", ".."]⟩ =
    ({ usersDisk none with tree := ⟨[(["out"], .directory)]⟩ }, none) := by
  have missing : (usersDisk none).makeDirectory ⟨"/", ["out", ".."]⟩ =
      .error (.step .missing "/out/..") := rfl
  have parent : Path.parent ⟨"/", ["out", ".."]⟩ = ⟨"/", ["out"]⟩ := rfl
  have above : (usersDisk none).makeDirectory ⟨"/", ["out"]⟩ =
      .ok { usersDisk none with tree := ⟨[(["out"], .directory)]⟩ } := rfl
  rw [Disk.makeDirectories, missing, parent, Disk.makeDirectories, above]
  rfl

theorem exportAll_single (destination : Destination) (disk : Disk) (file : SchemaFile)
    (document : TypeSpec.Document) : (destination.exportAll disk [(file, document)]).1 =
      (disk.write (destination.target file.place document) (Text.Utf8.encode document.content)
        destination.overwrite).1 := by
  rw [exportAll_disk, ← writeDocument_disk]
  rcases writeDocuments_disk destination disk { } file document [] with
    ⟨next, escape, found, same⟩ | ⟨next, written, found, same⟩
  · rw [same, found]
  · rw [same, found]
    rfl

end RailSpec.Destination
