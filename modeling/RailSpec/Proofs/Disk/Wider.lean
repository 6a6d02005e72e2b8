import RailSpec.Proofs.Disk.Directories
import RailSpec.Proofs.Disk.Path

/-!
Two disks that differ in directories which only one of them has. A path on whose way nothing is
missing leads to the same place on both, and steps taken at the same place keep them so.
-/

namespace RailSpec.Disk

variable {extra : Place → Prop} {disk wider after : Disk} {path : Path} {place : Place}

/-- A disk and one with more directories, all of them where the system lets directories be made. -/
structure Widens (extra : Place → Prop) (disk wider : Disk) : Prop where
  here : wider.here = disk.here
  marks : wider.marks = disk.marks
  refuses : wider.refuses = disk.refuses
  cases : ∀ place, wider.tree.found? place = disk.tree.found? place ∨
    (extra place ∧ disk.refuses .makeDirectory (Path.ofPlace place).toString = none) ∧
      disk.tree.found? place = none ∧ wider.tree.found? place = some .directory

theorem Path.resolve_ofPlace (down : parentName ∉ place) (here : Place) :
    (Path.ofPlace place).resolve here = place :=
  (follow_down down []).trans (List.nil_append place)

/-- What is made on the way to a place only adds directories on that way. -/
theorem Paved.widens (down : Path.parentName ∉ place)
    (paved : disk.Paved (Path.ofPlace place) after) : Widens (· <+: place) disk after := by
  refine ⟨paved.here, paved.marks, paved.refuses, fun other => ?_⟩
  refine (paved.cases other).imp_right fun ⟨vacant, new, front, within, same, allowed⟩ => ?_
  have front_eq : other = front :=
    same.trans (Path.resolve_ofPlace (fun member => down (within.subset member)) disk.here)
  exact ⟨⟨front_eq ▸ within, front_eq ▸ allowed⟩, vacant, new⟩

namespace Widens

/-- What is not one of the further directories is the same on both disks. -/
theorem kept (widens : Widens extra disk wider)
    (apart : ¬ extra place) : wider.tree.found? place = disk.tree.found? place :=
  (widens.cases place).resolve_right fun gap => apart gap.1.1

theorem put (widens : Widens extra disk wider) (below : place ≠ []) (entry : Entry) :
    Widens extra { disk with tree := disk.tree.put place entry }
      { wider with tree := wider.tree.put place entry } := by
  refine ⟨widens.here, widens.marks, widens.refuses, fun other => ?_⟩
  by_cases same : other = place
  · rw [same, Tree.found?_put_same _ _ below, Tree.found?_put_same _ _ below]
    exact .inl rfl
  · rw [Tree.found?_put_other _ _ same, Tree.found?_put_other _ _ same]
    exact widens.cases other

/-- A directory that one disk has is made on the other. -/
theorem fill (widens : Widens extra disk wider) (below : place ≠ [])
    (there : wider.tree.found? place = some .directory) :
    Widens extra { disk with tree := disk.tree.put place .directory } wider := by
  refine ⟨widens.here, widens.marks, widens.refuses, fun other => ?_⟩
  by_cases same : other = place
  · rw [same, Tree.found?_put_same _ _ below, there]
    exact .inl rfl
  · rw [Tree.found?_put_other _ _ same]
    exact widens.cases other

theorem erase (widens : Widens extra disk wider) (below : place ≠ []) :
    Widens extra { disk with tree := disk.tree.erase place }
      { wider with tree := wider.tree.erase place } := by
  refine ⟨widens.here, widens.marks, widens.refuses, fun other => ?_⟩
  by_cases same : other = place
  · rw [same, Tree.found?_erase_same _ below, Tree.found?_erase_same _ below]
    exact .inl rfl
  · rw [Tree.found?_erase_other _ same, Tree.found?_erase_other _ same]
    exact widens.cases other

/-! Ways on which nothing is missing lead to the same place on both disks. -/

theorem step (widens : Widens extra disk wider) (place : Place) (name : String) :
    disk.tree.step place name = .error .missing ∨
      wider.tree.step place name = disk.tree.step place name := by
  rcases widens.cases place with kept | ⟨_, vacant, _⟩
  · right
    rw [Tree.step, Tree.step, kept]
  · left
    rw [Tree.step, vacant]

theorem walk (widens : Widens extra disk wider) (place : Place) (names : List String) :
    disk.tree.walk place names = .error .missing ∨
      wider.tree.walk place names = disk.tree.walk place names := by
  induction names generalizing place with
  | nil => exact .inr rfl
  | cons name rest ih =>
    rw [Tree.walk, Tree.walk]
    rcases widens.step place name with missing | same
    · rw [missing]
      exact .inl rfl
    · rw [same]
      cases disk.tree.step place name with
      | ok next => exact ih next
      | error errno => exact .inr rfl

theorem locate (widens : Widens extra disk wider) (path : Path)
    (reached : disk.tree.locate disk.here path ≠ .error .missing) :
    wider.tree.locate wider.here path = disk.tree.locate disk.here path := by
  unfold Tree.locate at reached ⊢
  split
  · rfl
  · rename_i short
    rw [if_neg short] at reached
    rw [widens.here]
    exact (widens.walk _ _).resolve_left reached

end Widens

/-- Two disks on which a path leads to the same. -/
structure SameAt (disk wider : Disk) (path : Path) : Prop where
  locate : wider.tree.locate wider.here path = disk.tree.locate disk.here path
  found : ∀ place, disk.tree.locate disk.here path = .ok place →
    wider.tree.found? place = disk.tree.found? place

theorem Widens.sameAt (widens : Widens extra disk wider)
    (reached : disk.tree.locate disk.here path ≠ .error .missing)
    (kept : wider.tree.found? (path.resolve disk.here) =
      disk.tree.found? (path.resolve disk.here)) : SameAt disk wider path := by
  refine ⟨widens.locate path reached, fun place located => ?_⟩
  rw [Tree.locate_eq_resolve located]
  exact kept

namespace SameAt

variable (same : SameAt disk wider path)
include same

theorem status :
    wider.tree.status wider.here path = disk.tree.status disk.here path := by
  unfold Tree.status
  rw [same.locate]
  cases located : disk.tree.locate disk.here path with
  | error errno => rfl
  | ok place =>
    dsimp only
    rw [same.found place located]

theorem isDirectory : wider.isDirectory path = disk.isDirectory path := by
  unfold Disk.isDirectory isKind
  rw [same.status]

theorem present : wider.present path = disk.present path := by
  unfold Disk.present
  rw [same.status]

/-- What is made at such a path is made on both disks, or on neither for the same reason. -/
theorem create (entry : Entry) :
    (∃ errno, disk.tree.create disk.here path entry = .error errno ∧
        wider.tree.create wider.here path entry = .error errno) ∨
      ∃ place, place ≠ [] ∧
        disk.tree.create disk.here path entry = .ok (disk.tree.put place entry) ∧
        wider.tree.create wider.here path entry = .ok (wider.tree.put place entry) := by
  have vacancy : wider.tree.vacancy wider.here path = disk.tree.vacancy disk.here path := by
    unfold Tree.vacancy
    rw [same.locate]
    cases located : disk.tree.locate disk.here path with
    | error errno => rfl
    | ok place =>
      dsimp only
      rw [same.found place located]
  unfold Tree.create
  rw [vacancy]
  cases free : disk.tree.vacancy disk.here path with
  | error errno => exact .inl ⟨errno, rfl, rfl⟩
  | ok place =>
    refine .inr ⟨place, ?_, rfl, rfl⟩
    unfold Tree.vacancy at free
    split at free
    · cases free
    · split at free
      · rename_i ends
        cases free
        simp only [Bool.and_eq_true, Option.isNone_iff_eq_none] at ends
        exact Tree.below_of_vacant ends.2
      · cases free

end SameAt

end RailSpec.Disk
