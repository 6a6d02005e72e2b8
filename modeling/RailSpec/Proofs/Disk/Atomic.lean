import RailSpec.Proofs.Disk.Change
import RailSpec.Proofs.Disk.Making

/-!
Writes that fail halfway. Whichever step of a write the system refuses, and whatever it let pass
before, every file is as it was and all that is new are directories on the way to the target. A write
that is through has its content in the target and every other file as it was.
-/

namespace RailSpec.Disk

variable {disk made filled after : Disk} {path temporary : Path} {content : ByteArray}
  {overwrite : Bool} {tree : Tree} {fault : Fault} {bytes : Nat}

/-- All ways in which a write can end on a system that may fail at any step, also at one that it let
pass before. A temporary file that does not get to the target's place is removed again. -/
inductive Stops (disk : Disk) (path : Path) (content : ByteArray) (overwrite : Bool) :
    Disk × Except Fault Nat → Prop where
  /-- After some of the parents were made, or at the look for the target, or for want of a temporary
  file. -/
  | early {made : Disk} (makes : disk.Makes path.parent made) (fault : Fault) :
    Stops disk path content overwrite (made, .error fault)
  /-- While the temporary file is filled or moved. -/
  | late {made filled : Disk} {temporary : Path} (makes : disk.Makes path.parent made)
    (named : made.createTemporary path made.marks = .ok (filled, temporary)) (fault : Fault) :
    Stops disk path content overwrite
      ({ filled with tree := filled.tree.erase (temporary.resolve filled.here) }, .error fault)
  | through {made filled : Disk} {temporary : Path} {tree : Tree}
    (makes : disk.Makes path.parent made) (above : made.isDirectory path.parent = .ok true)
    (absent : overwrite = false → made.present path = .ok false)
    (named : made.createTemporary path made.marks = .ok (filled, temporary))
    (moved : filled.tree.rename filled.here (temporary.resolve filled.here) content path =
      .ok tree) :
    Stops disk path content overwrite ({ filled with tree }, .ok content.size)

/-- A write on one disk, which refuses the same steps all along, ends in one of these ways. -/
theorem write_stops (disk : Disk) (path : Path) (content : ByteArray) (overwrite : Bool) :
    Stops disk path content overwrite (disk.write path content overwrite) := by
  have makes := makeDirectories_makes disk path.parent
  unfold write
  split
  · rename_i made fault found
    rw [found] at makes
    exact .early makes fault
  · rename_i made found
    rw [found] at makes
    split
    · exact .early makes _
    · rename_i present looked
      split
      · exact .early makes _
      · rename_i allowed
        have absent (guarded : overwrite = false) : made.present path = .ok false := by
          rw [looked]
          simpa [guarded] using allowed
        split
        · exact .early makes _
        · rename_i filled temporary named
          unfold fillAndMove
          dsimp only
          split
          · exact .late makes named _
          · split
            · exact .late makes named _
            · exact .late makes named _
            · rename_i moved
              exact .through makes (makeDirectories_isDirectory found) absent named moved

/-- A path without names has no parents that are made. -/
theorem Makes.eq_of_nameless (makes : disk.Makes path made) (nameless : path.names = []) :
    made = disk := by
  cases makes with
  | refl => rfl
  | @step between _ front before within done =>
    rw [nameless, List.prefix_nil] at within
    have making := makeDirectory_making between { path with names := front }
    rw [done, within] at making
    cases making with
    | made clean allowed located ends vacant => cases ends

/-- A write that fails leaves what was made of the target's parents. -/
theorem Stops.makes (stops : Stops disk path content overwrite (after, .error fault)) :
    ∃ made, disk.Makes path.parent made ∧ after.here = made.here ∧
      after.tree.found? = made.tree.found? := by
  cases stops with
  | early makes => exact ⟨after, makes, rfl, rfl⟩
  | late makes named =>
    obtain ⟨_, _, vacant, rfl⟩ := createTemporary_cases named
    exact ⟨_, makes, rfl, Tree.found?_erase_put vacant⟩

theorem Stops.grows (stops : Stops disk path content overwrite (after, .error fault)) :
    disk.Grows after := by
  obtain ⟨made, makes, here, found⟩ := stops.makes
  have grows := makes.paved.grows
  refine ⟨here.trans grows.here, fun {place entry} there => ?_, fun {place content} there => ?_⟩
  · rw [found]
    exact grows.stays there
  · rw [found] at there
    exact grows.noFile there

/-- The target is none of its parents, unless its path leads up again. -/
theorem Stops.target_eq (stops : Stops disk path content overwrite (after, .error fault))
    (down : Path.parentName ∉ path.names) :
    after.tree.found? (path.resolve disk.here) = disk.tree.found? (path.resolve disk.here) := by
  obtain ⟨made, makes, _, found⟩ := stops.makes
  rw [found]
  rcases makes.paved.cases (path.resolve disk.here) with kept | ⟨_, _, front, within, same, _⟩
  · exact kept
  · have inside : front <+: path.names := within.trans (List.dropLast_prefix path.names)
    have down' : Path.parentName ∉ front := fun member => down (inside.subset member)
    have ends : path.names = front := by
      rw [Path.resolve, Path.resolve, Path.follow_down down, Path.follow_down down'] at same
      exact List.append_cancel_left same
    -- a list that goes before itself without its last element has none
    have nameless : path.names = [] := by
      have shorter := within.length_le
      rw [← ends, Path.parent, List.length_dropLast] at shorter
      apply List.eq_nil_of_length_eq_zero
      omega
    have parent : path.parent.names = [] := by rw [Path.parent, nameless, List.dropLast_nil]
    rw [makes.eq_of_nameless parent]

theorem Stops.through_writes (stops : Stops disk path content overwrite (after, .ok bytes)) :
    Writes disk path content overwrite (after, .ok bytes) := by
  cases stops with
  | through makes above absent named moved =>
    obtain ⟨⟨mark, same⟩, unnulled, vacant, rfl⟩ := createTemporary_cases named
    have clean := hasNull_of_temporary (isDirectory_iff.mp above).1 (same ▸ unnulled)
    exact moved_writes vacant rfl makes.paved.grows clean absent moved

/-- Besides its target a write changes nothing but its parents. -/
theorem Stops.cases {result : Except Fault Nat}
    (stops : Stops disk path content overwrite (after, result)) {place : Place}
    (apart : place ≠ path.resolve disk.here ∨ ∃ fault, result = .error fault) :
    after.tree.found? place = disk.tree.found? place ∨ disk.tree.found? place = none ∧
      after.tree.found? place = some .directory ∧ disk.Paves path.parent place := by
  cases result with
  | error fault =>
    obtain ⟨made, makes, _, found⟩ := stops.makes
    rw [found]
    exact makes.paved.cases place
  | ok bytes =>
    obtain beside : place ≠ path.resolve disk.here := apart.resolve_right nofun
    cases stops with
    | through makes above absent named moved =>
      obtain ⟨_, _, vacant, rfl⟩ := createTemporary_cases named
      obtain ⟨_, _, rfl⟩ := Tree.rename_cases moved
      rw [← makes.paved.here] at beside
      rw [Tree.found?_put_other _ _ beside, Tree.found?_erase_put vacant]
      exact makes.paved.cases place

/-- A write that fails at any of its steps leaves every file as it was and no other, also no
temporary one; only directories on the way to the target may be new, and the target is as it was
unless its path leads up again over one of these. A write that is through gives the size of its
content, which is in the target, and leaves every other file as it was. -/
theorem writeText_atomic (disk : Disk) (path : Path) (text : String) (overwrite : Bool) :
    Stops disk path (Text.Utf8.encode text) overwrite (disk.writeText path text overwrite) ∧
    (∀ after fault, Stops disk path (Text.Utf8.encode text) overwrite (after, .error fault) →
      (∀ place content, after.tree.found? place = some (.file content) ↔
        disk.tree.found? place = some (.file content)) ∧
      (∀ other content, disk.readBytes other = .ok content → after.readBytes other = .ok content) ∧
      (Path.parentName ∉ path.names →
        after.tree.found? (path.resolve disk.here) = disk.tree.found? (path.resolve disk.here)) ∧
      ∀ place, after.tree.found? place = disk.tree.found? place ∨ disk.tree.found? place = none ∧
        after.tree.found? place = some .directory ∧ disk.Paves path.parent place) ∧
    ∀ after bytes, Stops disk path (Text.Utf8.encode text) overwrite (after, .ok bytes) →
      bytes = (Text.Utf8.encode text).size ∧
      after.readBytes path = .ok (Text.Utf8.encode text) ∧
      (∀ other content, disk.readBytes other = .ok content →
        path.resolve disk.here ≠ other.resolve disk.here → after.readBytes other = .ok content) ∧
      ∀ place, place ≠ path.resolve disk.here →
        after.tree.found? place = disk.tree.found? place ∨ disk.tree.found? place = none ∧
          after.tree.found? place = some .directory ∧ disk.Paves path.parent place := by
  refine ⟨write_stops disk path _ overwrite, ?failed, ?through⟩
  case failed =>
    intro after fault stops
    have refused : Writes disk path (Text.Utf8.encode text) false (after, .error fault) :=
      .refused fault stops.grows
    refine ⟨fun place content => refused.refused_iff, ?_, stops.target_eq, ?_⟩
    · intro other content read
      exact readBytes_kept refused read nofun
    · intro place
      exact stops.cases (.inr ⟨fault, rfl⟩)
  case through =>
    intro after bytes stops
    have writes := stops.through_writes
    refine ⟨?_, readBytes_written writes, ?_, ?_⟩
    · cases writes
      rfl
    · intro other content read apart
      exact readBytes_kept writes read fun _ => apart
    · intro place apart
      exact stops.cases (.inl apart)

/-! A disk with one file, on which no file can be moved to its place, and the same disk where all goes
well. -/

def notesDisk (refused : Option Errno) : Disk :=
  { tree := ⟨[(["notes"], .file (Text.Utf8.encode "kept"))]⟩
    marks := ["m"]
    refuses := fun action _ => if action = .renameFile then refused else none }

/-- That disk with a directory besides. -/
def notesDiskOut (refused : Option Errno) : Disk :=
  { notesDisk refused with
    tree := ⟨(["out"], .directory) :: (notesDisk refused).tree.entries⟩ }

theorem makeDirectories_notes (refused : Option Errno) :
    (notesDisk refused).makeDirectories ⟨"/", ["out"]⟩ = (notesDiskOut refused, none) := by
  have made : (notesDisk refused).makeDirectory ⟨"/", ["out"]⟩ = .ok (notesDiskOut refused) := rfl
  rw [makeDirectories, made]

theorem writeText_notes (refused : Option Errno) :
    (notesDisk refused).writeText ⟨"/", ["out", "draft"]⟩ "text" true =
      match refused with
      | some errno =>
        (notesDiskOut refused, .error (.renaming errno "/out/.draft.m.tmp" "/out/draft"))
      | none =>
        ({ notesDiskOut none with
          tree := (notesDiskOut none).tree.put ["out", "draft"]
            (.file (Text.Utf8.encode "text")) }, .ok 4) := by
  have parent : Path.parent ⟨"/", ["out", "draft"]⟩ = ⟨"/", ["out"]⟩ := rfl
  rw [writeText, write, parent, makeDirectories_notes]
  cases refused <;> rfl

/-- The directory for the new file stays and nothing of the file, or the new file is there; the old
one is untouched. -/
theorem writeText_atomic_notes :
    (∃ after fault,
      (notesDisk (some .noSpace)).writeText ⟨"/", ["out", "draft"]⟩ "text" true =
          (after, .error fault) ∧
        after.tree.found? ["out"] = some .directory ∧
        after.tree.found? ["out", "draft"] = none ∧
        after.readBytes ⟨"/", ["notes"]⟩ = .ok (Text.Utf8.encode "kept")) ∧
    ∃ after, (notesDisk none).writeText ⟨"/", ["out", "draft"]⟩ "text" true = (after, .ok 4) ∧
      after.readBytes ⟨"/", ["out", "draft"]⟩ = .ok (Text.Utf8.encode "text") ∧
      after.readBytes ⟨"/", ["notes"]⟩ = .ok (Text.Utf8.encode "kept") := by
  have read (refused : Option Errno) : (notesDisk refused).readBytes ⟨"/", ["notes"]⟩ =
      .ok (Text.Utf8.encode "kept") := rfl
  constructor
  · obtain ⟨ends, failed, _⟩ :=
      writeText_atomic (notesDisk (some .noSpace)) ⟨"/", ["out", "draft"]⟩ "text" true
    rw [writeText_notes] at ends
    obtain ⟨_, reads, target, _⟩ := failed _ _ ends
    exact ⟨_, _, writeText_notes _, rfl, target (by decide), reads _ _ (read _)⟩
  · obtain ⟨ends, _, through⟩ :=
      writeText_atomic (notesDisk none) ⟨"/", ["out", "draft"]⟩ "text" true
    rw [writeText_notes] at ends
    obtain ⟨_, written, others, _⟩ := through _ _ ends
    exact ⟨_, writeText_notes _, written, others _ _ (read _) (by decide)⟩

end RailSpec.Disk
