import RailSpec.Disk.File
import RailSpec.Proofs.Disk.Tree

/-!
The directories that are made for a path. They stand where nothing was, at places that the path
leads over, and nothing else changes, also if the making is given up halfway.
-/

namespace RailSpec.Disk

/-- A place that a path leads over or to, followed by its names alone, where the system lets a
directory be made. -/
def Paves (disk : Disk) (path : Path) (place : Place) : Prop :=
  ∃ front, front <+: path.names ∧ place = Path.resolve disk.here { path with names := front } ∧
    disk.refuses .makeDirectory (Path.toString { path with names := front }) = none

theorem Paves.of_front {disk : Disk} {path : Path} {place : Place} {front : List String}
    (within : front <+: path.names) (paves : disk.Paves { path with names := front } place) :
    disk.Paves path place := by
  obtain ⟨names, inside, same, allowed⟩ := paves
  exact ⟨names, inside.trans within, same, allowed⟩

variable {disk made after : Disk} {path : Path} {place : Place}

/-- A disk as another one, but for new directories on the way of a path. -/
structure Paved (disk : Disk) (path : Path) (after : Disk) : Prop where
  here : after.here = disk.here
  marks : after.marks = disk.marks
  refuses : after.refuses = disk.refuses
  cases : ∀ place, after.tree.found? place = disk.tree.found? place ∨
    disk.tree.found? place = none ∧ after.tree.found? place = some .directory ∧
      disk.Paves path place

namespace Paved

theorem refl (disk : Disk) (path : Path) : disk.Paved path disk :=
  ⟨rfl, rfl, rfl, fun _ => .inl rfl⟩

theorem of_front {front : List String} (within : front <+: path.names)
    (paved : disk.Paved { path with names := front } made) : disk.Paved path made :=
  ⟨paved.here, paved.marks, paved.refuses, fun place => (paved.cases place).imp_right
    fun ⟨vacant, new, paves⟩ => ⟨vacant, new, paves.of_front within⟩⟩

theorem trans (first : disk.Paved path made) (second : made.Paved path after) :
    disk.Paved path after := by
  refine ⟨second.here.trans first.here, second.marks.trans first.marks,
    second.refuses.trans first.refuses, fun place => ?_⟩
  rcases second.cases place with kept | ⟨vacant, new, paves⟩
  · rw [kept]
    exact first.cases place
  · rcases first.cases place with kept | ⟨_, early, _⟩
    · rw [Paves, first.here, first.refuses] at paves
      exact .inr ⟨kept.symm.trans vacant, new, paves⟩
    · cases vacant.symm.trans early

/-- What was there still is. -/
theorem stays (paved : disk.Paved path after) {entry : Entry}
    (there : disk.tree.found? place = some entry) : after.tree.found? place = some entry := by
  rcases paved.cases place with kept | ⟨vacant, _, _⟩
  · exact kept.trans there
  · cases vacant.symm.trans there

theorem noFile (paved : disk.Paved path after) {content : ByteArray}
    (there : after.tree.found? place = some (.file content)) :
    disk.tree.found? place = some (.file content) := by
  rcases paved.cases place with kept | ⟨_, new, _⟩
  · exact kept.symm.trans there
  · cases new.symm.trans there

end Paved

theorem makeDirectory_paved (done : disk.makeDirectory path = .ok made) : disk.Paved path made := by
  unfold makeDirectory at done
  split at done
  · cases done
  · split at done
    · cases done
    · rename_i allowed
      split at done
      · rename_i tree created
        cases done
        obtain ⟨vacant, rfl⟩ := Tree.create_cases created
        refine ⟨rfl, rfl, rfl, fun place => ?_⟩
        by_cases same : place = path.resolve disk.here
        · subst same
          have new := Tree.found?_put_same disk.tree .directory (Tree.below_of_vacant vacant)
          exact .inr ⟨vacant, new, path.names, List.prefix_rfl, rfl, allowed⟩
        · exact .inl (Tree.found?_put_other _ _ same)
      · cases done

theorem settled_disk (disk : Disk) (path : Path) (fault : Fault) :
    (disk.settled path fault).1 = disk := by
  unfold settled
  split <;> rfl

/-- Single directories made one after the other on the way of a path. -/
inductive Makes (disk : Disk) (path : Path) : Disk → Prop where
  | refl : Makes disk path disk
  | step {made after : Disk} {front : List String} (before : Makes disk path made)
    (within : front <+: path.names)
    (done : made.makeDirectory { path with names := front } = .ok after) : Makes disk path after

theorem Makes.of_parent (makes : disk.Makes path.parent made) : disk.Makes path made := by
  induction makes with
  | refl => exact .refl
  | step _ within done ih => exact .step ih (within.trans (List.dropLast_prefix path.names)) done

/-- Directories are only made on the way. -/
theorem Makes.paved (makes : disk.Makes path made) : disk.Paved path made := by
  induction makes with
  | refl => exact .refl disk path
  | step _ within done ih => exact ih.trans ((makeDirectory_paved done).of_front within)

/-- Making directories makes single ones, even if it is given up. -/
theorem makeDirectories_makes (disk : Disk) (path : Path) :
    disk.Makes path (disk.makeDirectories path).1 := by
  -- on the parents, which are made when they are missing, before the directory itself
  fun_induction makeDirectories disk path with
  | case1 path made created => exact .step .refl List.prefix_rfl created
  | case2 path fault =>
    rw [settled_disk]
    exact .refl
  | case3 path => exact .refl
  | case4 path fault refused missing some made trouble above ih =>
    rw [above] at ih
    exact ih.of_parent
  | case5 path fault refused missing some made above made' created ih =>
    rw [above] at ih
    exact .step ih.of_parent List.prefix_rfl created
  | case6 path fault refused missing some made above fault' refused' missing' ih =>
    rw [above] at ih
    exact ih.of_parent
  | case7 path fault refused missing some made above fault' refused' other ih =>
    rw [above] at ih
    rw [settled_disk]
    exact ih.of_parent

theorem makeDirectories_paved (disk : Disk) (path : Path) :
    disk.Paved path (disk.makeDirectories path).1 :=
  (makeDirectories_makes disk path).paved

end RailSpec.Disk
