import RailSpec.Proofs.Disk.Wider.Directories

/-!
Files written to a disk and to one with more directories. A file for which none of those is in the
way is written to both, or to neither, and the disks differ in no more afterwards.
-/

namespace RailSpec.Disk

variable {extra : Place → Prop} {disk wider after : Disk} {path : Path} {place : Place}

/-- Results of which one is the other, but for the words of a refusal. -/
inductive Alike : Except Fault Nat → Except Fault Nat → Prop where
  | same (result : Except Fault Nat) : Alike result result
  | refused {fault other : Fault} (plain : fault ≠ .nullByte) (otherPlain : other ≠ .nullByte) :
    Alike (.error fault) (.error other)

/-- A write comes to the same on a disk and a wider one. -/
structure Together (extra : Place → Prop) (first second : Disk × Except Fault Nat) : Prop where
  widens : Widens extra first.1 second.1
  alike : Alike first.2 second.2

theorem SameAt.rename (same : SameAt disk wider path) (source : Place) (content : ByteArray) :
    (∃ errno, disk.tree.rename disk.here source content path = .error errno ∧
        wider.tree.rename wider.here source content path = .error errno) ∨
      ∃ place, place ≠ [] ∧
        disk.tree.rename disk.here source content path =
          .ok ((disk.tree.erase source).put place (.file content)) ∧
        wider.tree.rename wider.here source content path =
          .ok ((wider.tree.erase source).put place (.file content)) := by
  unfold Tree.rename
  rw [same.locate]
  cases located : disk.tree.locate disk.here path with
  | error errno => exact .inl ⟨errno, rfl, rfl⟩
  | ok place =>
    dsimp only
    rw [same.found place located]
    split
    · exact .inl ⟨_, rfl, rfl⟩
    · split
      · exact .inl ⟨_, rfl, rfl⟩
      · rename_i other
        refine .inr ⟨place, ?_, rfl, rfl⟩
        rintro rfl
        exact other rfl

theorem SameAt.fillAndMove (same : SameAt disk wider path) (widens : Widens extra disk wider)
    {temporary : Path} (below : temporary.resolve disk.here ≠ []) (content : ByteArray) :
    Together extra (disk.fillAndMove temporary path content)
      (wider.fillAndMove temporary path content) := by
  have removed := widens.erase below
  have allowed (action : Action) (text : String) :
      wider.refuses action text = disk.refuses action text := by rw [widens.refuses]
  have source : temporary.resolve wider.here = temporary.resolve disk.here := by rw [widens.here]
  unfold Disk.fillAndMove
  rw [source, allowed, allowed]
  cases disk.refuses .writeFile temporary.toString with
  | some errno => exact ⟨removed, .same _⟩
  | none =>
    dsimp only
    rcases same.rename (temporary.resolve disk.here) content with
      ⟨errno, here, there⟩ | ⟨place, above, here, there⟩
    · rw [here, there]
      cases disk.refuses .renameFile path.toString <;> exact ⟨removed, .same _⟩
    · rw [here, there]
      cases disk.refuses .renameFile path.toString with
      | some errno => exact ⟨removed, .same _⟩
      | none => exact ⟨removed.put above _, .same _⟩

theorem temporary_ofPlace (down : Path.parentName ∉ place) (disk : Disk) (mark : String) :
    disk.temporary (Path.ofPlace place) mark =
      Path.ofPlace (place.dropLast ++
        ["." ++ (Path.ofPlace place).name ++ "." ++ mark ++ ".tmp"]) := by
  have parent : (Path.ofPlace place).parent.resolve disk.here = place.dropLast :=
    Path.resolve_ofPlace (fun member => down (List.dropLast_subset _ member)) disk.here
  rw [temporary, Path.absolute, parent]
  rfl

theorem Widens.sameAt_temporary (widens : Widens extra disk wider) (down : Path.parentName ∉ place)
    (above : disk.isDirectory (Path.ofPlace place).parent = .ok true) {mark : String}
    (free : ¬ extra ((disk.temporary (Path.ofPlace place) mark).resolve disk.here)) :
    SameAt disk wider (disk.temporary (Path.ofPlace place) mark) := by
  refine widens.sameAt ?_ (widens.kept free)
  rw [temporary_ofPlace down]
  refine Tree.locate_reached rfl (by simp [Path.ofPlace]) ?_
  have parent := (isDirectory_iff.mp above).2
  simpa [Path.parent, Path.ofPlace] using parent

/-- A temporary file is made on both disks under the same name, or on neither for the same
reason. -/
theorem createTemporary_follows (widens : Widens extra disk wider)
    (down : Path.parentName ∉ place)
    (above : disk.isDirectory (Path.ofPlace place).parent = .ok true) {marks : List String}
    (apart : ∀ mark ∈ marks,
      ¬ extra ((disk.temporary (Path.ofPlace place) mark).resolve disk.here)) :
    (∃ fault, disk.createTemporary (Path.ofPlace place) marks = .error fault ∧
        wider.createTemporary (Path.ofPlace place) marks = .error fault) ∨
      ∃ temporary made made',
        disk.createTemporary (Path.ofPlace place) marks = .ok (made, temporary) ∧
        wider.createTemporary (Path.ofPlace place) marks = .ok (made', temporary) ∧
        Widens extra made made' := by
  induction marks with
  | nil => exact .inl ⟨_, rfl, rfl⟩
  | cons mark rest ih =>
    obtain ⟨free, others⟩ := List.forall_mem_cons.mp apart
    have named : wider.temporary (Path.ofPlace place) mark =
        disk.temporary (Path.ofPlace place) mark := by
      rw [temporary_ofPlace down, temporary_ofPlace down]
    have same := widens.sameAt_temporary down above free
    have allowed : wider.refuses .createFile (disk.temporary (Path.ofPlace place) mark).toString =
        disk.refuses .createFile (disk.temporary (Path.ofPlace place) mark).toString := by
      rw [widens.refuses]
    rw [createTemporary, createTemporary, named, allowed]
    split
    · exact .inl ⟨_, rfl, rfl⟩
    · rcases same.create (.file ByteArray.empty) with
        ⟨errno, here, there⟩ | ⟨found, below, here, there⟩
      · rw [here, there]
        cases disk.refuses .createFile (disk.temporary (Path.ofPlace place) mark).toString with
        | none => cases errno <;> first | exact ih others | exact .inl ⟨_, rfl, rfl⟩
        | some errno' => cases errno' <;> first | exact ih others | exact .inl ⟨_, rfl, rfl⟩
      · rw [here, there]
        cases disk.refuses .createFile (disk.temporary (Path.ofPlace place) mark).toString with
        | none => exact .inr ⟨_, _, _, rfl, rfl, widens.put below _⟩
        | some errno => cases errno <;> first | exact ih others | exact .inl ⟨_, rfl, rfl⟩

theorem fillAndMove_follows {made filled filled' : Disk} {temporary : Path} {marks : List String}
    (widens : Widens extra filled filled') (down : Path.parentName ∉ place) (named : place ≠ [])
    (apart : ¬ extra place) (above : made.isDirectory (Path.ofPlace place).parent = .ok true)
    (done : made.createTemporary (Path.ofPlace place) marks = .ok (filled, temporary))
    (content : ByteArray) :
    Together extra (filled.fillAndMove temporary (Path.ofPlace place) content)
      (filled'.fillAndMove temporary (Path.ofPlace place) content) := by
  obtain ⟨_, _, vacant, rfl⟩ := createTemporary_cases done
  -- the temporary file is no directory, so the way to the target is as before
  have stay : Tree.DirectoriesStay made.tree
      (made.tree.put (temporary.resolve made.here) (.file ByteArray.empty)) :=
    Tree.stay_of_vacant vacant
  have reached := Tree.locate_reached rfl named
    (Tree.status_stays stay (isDirectory_iff.mp above).2)
  refine (widens.sameAt reached ?_).fillAndMove widens (Tree.below_of_vacant vacant) content
  rw [Path.resolve_ofPlace down]
  exact widens.kept apart

/-- A place where none of the further directories is in the way of a file, neither of the file
itself nor of a temporary one for it. -/
structure Clears (extra : Place → Prop) (disk : Disk) (place : Place) : Prop where
  target : ¬ extra place
  temporary : ∀ mark ∈ disk.marks,
    ¬ extra ((disk.temporary (Path.ofPlace place) mark).resolve disk.here)

/-- Where the directory of a file has to be made, the file is written as if it had been there. -/
theorem write_made (plain : disk.RefusesPlainly)
    (made : disk.makeDirectories path.parent = (after, none)) (content : ByteArray)
    (overwrite : Bool) :
    disk.write path content overwrite = after.write path content overwrite := by
  have paved := makeDirectories_paved disk path.parent
  rw [made] at paved
  have plain' : after.RefusesPlainly := fun text => paved.refuses ▸ plain text
  have there := makeDirectories_there plain' (makeDirectories_isDirectory made)
  rw [write, write, made, there]

theorem Clears.of_eq (clears : disk.Clears extra place) (here : after.here = disk.here)
    (marks : after.marks = disk.marks) : after.Clears extra place := by
  refine ⟨clears.target, fun mark member => ?_⟩
  have free := clears.temporary mark (marks ▸ member)
  rwa [Disk.temporary, ← here] at free

section Writing

variable (widens : Widens extra disk wider) (plain : disk.RefusesPlainly)
  (proper : Path.IsPlace place) (named : place ≠ []) (clears : disk.Clears extra place)
  (content : ByteArray) (overwrite : Bool)
include widens plain proper named clears

theorem write_follows_there (above : disk.isDirectory (Path.ofPlace place).parent = .ok true)
    (above' : wider.isDirectory (Path.ofPlace place).parent = .ok true) :
    Together extra (disk.write (Path.ofPlace place) content overwrite)
      (wider.write (Path.ofPlace place) content overwrite) := by
  have plain' : wider.RefusesPlainly := fun text => widens.refuses ▸ plain text
  have same : SameAt disk wider (Path.ofPlace place) := by
    refine widens.sameAt (Tree.locate_reached rfl named (isDirectory_iff.mp above).2) ?_
    rw [Path.resolve_ofPlace proper.noParent]
    exact widens.kept clears.target
  rw [write, write, makeDirectories_there plain above, makeDirectories_there plain' above']
  dsimp only
  rw [same.present, widens.marks]
  cases disk.present (Path.ofPlace place) with
  | error fault => exact ⟨widens, .same _⟩
  | ok present =>
    dsimp only
    split
    · exact ⟨widens, .same _⟩
    · rcases createTemporary_follows widens proper.noParent above clears.temporary with
        ⟨fault, left, right⟩ | ⟨temporary, filled, filled', left, right, widens'⟩
      · rw [left, right]
        exact ⟨widens, .same _⟩
      · rw [left, right]
        exact fillAndMove_follows widens' proper.noParent named clears.target above left content

/-- A write comes to the same on both disks if none of the further directories is in its way. -/
theorem write_follows (rooted : disk.tree.Rooted) :
    Together extra (disk.write (Path.ofPlace place) content overwrite)
      (wider.write (Path.ofPlace place) content overwrite) := by
  have plain' : wider.RefusesPlainly := fun text => widens.refuses ▸ plain text
  have paved := makeDirectories_paved disk (Path.ofPlace place).parent
  by_cases null : (Path.ofPlace place).parent.hasNull = true
  · rw [write, write, makeDirectories_null null, makeDirectories_null null]
    exact ⟨widens, .same _⟩
  have follow : Follow extra (disk.makeDirectories (Path.ofPlace place).parent)
      (wider.makeDirectories (Path.ofPlace place).parent) :=
    makeDirectories_follows widens plain rooted proper.dropLast (eq_false_of_ne_true null)
  cases here : disk.makeDirectories (Path.ofPlace place).parent with
  | mk made result =>
  cases there : wider.makeDirectories (Path.ofPlace place).parent with
  | mk made' result' =>
  rw [here, there] at follow
  rw [here] at paved
  obtain ⟨widens', failed⟩ := follow
  cases result with
  | some fault =>
    obtain ⟨fault', rfl⟩ := Option.isSome_iff_exists.mp failed
    rw [write, write, here, there]
    refine ⟨widens', .refused ?_ ?_⟩
    · rintro rfl
      exact null (makeDirectories_nullByte (congrArg Prod.snd here))
    · rintro rfl
      exact null (makeDirectories_nullByte (congrArg Prod.snd there))
  | none =>
    obtain rfl : result' = none := by simpa using failed
    rw [write_made plain here, write_made plain' there]
    exact write_follows_there widens' (fun text => paved.refuses ▸ plain text) proper named
      (clears.of_eq paved.here paved.marks) content overwrite (makeDirectories_isDirectory here)
      (makeDirectories_isDirectory there)

end Writing

end RailSpec.Disk
