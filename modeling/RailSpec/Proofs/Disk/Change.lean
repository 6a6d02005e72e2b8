import RailSpec.Proofs.Disk.File
import RailSpec.Proofs.Disk.Place

/-!
All that a write changes: directories on the way to its target, where nothing was, and the target
itself if it is written.
-/

namespace RailSpec.Disk

variable {disk made after : Disk} {path : Path} {content : ByteArray} {overwrite : Bool}
  {place : Place}

/-- The end of a write on a disk with the parents of its target: the target may be changed, and only
if the write was not refused. -/
structure Ends (made : Disk) (target : Place) (ended : Disk × Except Fault Nat) : Prop where
  here : ended.1.here = made.here
  marks : ended.1.marks = made.marks
  refuses : ended.1.refuses = made.refuses
  cases : ∀ place, ended.1.tree.found? place = made.tree.found? place ∨
    place = target ∧ ∃ bytes, ended.2 = .ok bytes

theorem Ends.refused (made : Disk) (target : Place) (fault : Fault) :
    made.Ends target (made, .error fault) :=
  ⟨rfl, rfl, rfl, fun _ => .inl rfl⟩

theorem fillAndMove_ends {temporary : Path}
    (vacant : made.tree.found? (temporary.resolve made.here) = none) :
    made.Ends (path.resolve made.here)
      (fillAndMove { made with
        tree := made.tree.put (temporary.resolve made.here) (.file ByteArray.empty) }
        temporary path content) := by
  -- without the temporary file the tree is the one before
  have undone : ((made.tree.put (temporary.resolve made.here) (.file ByteArray.empty)).erase
      (temporary.resolve made.here)).found? = made.tree.found? := Tree.found?_erase_put vacant
  have removed (fault : Fault) : made.Ends (path.resolve made.here)
      ({ made with
        tree := (made.tree.put (temporary.resolve made.here) (.file ByteArray.empty)).erase
          (temporary.resolve made.here) }, .error fault) :=
    ⟨rfl, rfl, rfl, fun place => .inl (congrFun undone place)⟩
  unfold fillAndMove
  dsimp only
  split
  · exact removed _
  · split
    · exact removed _
    · exact removed _
    · rename_i tree allowed moved
      obtain ⟨_, _, rfl⟩ := Tree.rename_cases moved
      refine ⟨rfl, rfl, rfl, fun place => ?_⟩
      by_cases same : place = path.resolve made.here
      · exact .inr ⟨same, content.size, rfl⟩
      · exact .inl ((Tree.found?_put_other _ _ same).trans (congrFun undone place))

/-- A write first makes directories and then, perhaps, its target. -/
theorem write_ends (disk : Disk) (path : Path) (content : ByteArray) (overwrite : Bool) :
    (disk.makeDirectories path.parent).1.Ends (path.resolve disk.here)
      (disk.write path content overwrite) := by
  have paved := makeDirectories_paved disk path.parent
  unfold write
  split
  · rename_i made fault above
    rw [above]
    exact .refused made _ fault
  · rename_i made above
    rw [above] at paved ⊢
    rw [← paved.here]
    split
    · exact .refused made _ _
    · split
      · exact .refused made _ _
      · split
        · exact .refused made _ _
        · rename_i filled temporary named
          obtain ⟨_, _, vacant, rfl⟩ := createTemporary_cases named
          exact fillAndMove_ends vacant

/-- A refused write leaves only directories behind. -/
theorem write_paved {fault : Fault}
    (refused : disk.write path content overwrite = (after, .error fault)) :
    disk.Paved path.parent after := by
  have paved := makeDirectories_paved disk path.parent
  have ends := write_ends disk path content overwrite
  rw [refused] at ends
  refine ⟨ends.here.trans paved.here, ends.marks.trans paved.marks,
    ends.refuses.trans paved.refuses, fun place => ?_⟩
  rcases ends.cases place with kept | ⟨_, bytes, written⟩
  · rw [show after.tree.found? place = _ from kept]
    exact paved.cases place
  · cases written

/-- Whatever a write changes is its target, or a new directory on the way there. -/
theorem write_changes (changed : (disk.write path content overwrite).1.tree.found? place ≠
      disk.tree.found? place) :
    place = path.resolve disk.here ∨ disk.tree.found? place = none ∧
      (disk.write path content overwrite).1.tree.found? place = some .directory ∧
      disk.Paves path.parent place := by
  rcases (write_ends disk path content overwrite).cases place with kept | ⟨target, _⟩
  · rcases (makeDirectories_paved disk path.parent).cases place with same | new
    · exact absurd (kept.trans same) changed
    · rw [kept]
      exact .inr new
  · exact .inl target

/-- The temporary file for a target stands in its directory. -/
theorem temporary_resolve (mark : String)
    (proper : Path.parentName ∉ path.parent.resolve disk.here) :
    (disk.temporary path mark).resolve disk.here =
      path.parent.resolve disk.here ++ ["." ++ path.name ++ "." ++ mark ++ ".tmp"] := by
  have apart : "." ++ path.name ++ "." ++ mark ++ ".tmp" ≠ Path.parentName := by
    intro same
    have length := congrArg String.length same
    simp only [String.length_append, show ".tmp".length = 4 from rfl,
      show Path.parentName.length = 2 from rfl] at length
    omega
  have absolute : (disk.temporary path mark).isAbsolute = true := by
    unfold temporary Path.absolute Path.isAbsolute
    split <;> rfl
  rw [Path.resolve, if_pos absolute]
  refine Path.follow_down (fun member => ?_) []
  rcases List.mem_append.mp member with above | last
  · exact proper above
  · exact apart (List.mem_singleton.mp last).symm

end RailSpec.Disk
