import Mathlib.Data.List.Induction
import RailSpec.Proofs.Disk.Making
import RailSpec.Proofs.Disk.Place
import RailSpec.Proofs.Disk.Rooted
import RailSpec.Proofs.Disk.Wider

/-!
Directories made on a disk and on one with more of them. They come to be there on both, or the
making fails on both, and the disks differ in no more afterwards.
-/

namespace RailSpec.Disk

variable {extra : Place → Prop} {disk wider : Disk} {path : Path} {place : Place}

/-- Making directories comes to the same on a disk and a wider one. -/
structure Follow (extra : Place → Prop) (first second : Disk × Option Fault) : Prop where
  widens : Widens extra first.1 second.1
  failed : second.2.isSome = first.2.isSome

theorem attempt_failed {fault : Fault} (failed : (disk.attempt path).2 = some fault) :
    (disk.attempt path).1 = disk := by
  unfold attempt at failed ⊢
  split
  · rename_i made found
    rw [found] at failed
    cases failed
  · split
    · rfl
    · exact settled_disk ..

theorem settled_some (fault : Fault) (other : disk.isDirectory path ≠ .ok true) :
    ∃ trouble, disk.settled path fault = (disk, some trouble) := by
  cases done : disk.settled path fault with
  | mk after result =>
    cases result with
    | none => exact absurd (settled_none done).2 other
    | some trouble =>
      have unchanged := settled_disk disk path fault
      rw [done] at unchanged
      exact ⟨trouble, Prod.ext unchanged rfl⟩

theorem SameAt.settled (same : SameAt disk wider path) (fault : Fault) :
    wider.settled path fault = (wider, (disk.settled path fault).2) := by
  unfold Disk.settled
  rw [same.isDirectory]
  cases disk.isDirectory path with
  | error trouble => cases fault <;> rfl
  | ok there => cases there <;> cases fault <;> rfl

theorem SameAt.attempt (same : SameAt disk wider path) (widens : Widens extra disk wider) :
    Follow extra (disk.attempt path) (wider.attempt path) := by
  have make : (∃ fault, disk.makeDirectory path = .error fault ∧
      wider.makeDirectory path = .error fault) ∨
      ∃ place, place ≠ [] ∧
        disk.makeDirectory path = .ok { disk with tree := disk.tree.put place .directory } ∧
        wider.makeDirectory path = .ok { wider with tree := wider.tree.put place .directory } := by
    unfold makeDirectory
    rw [widens.refuses]
    split
    · exact .inl ⟨_, rfl, rfl⟩
    · cases disk.refuses .makeDirectory path.toString with
      | some errno => exact .inl ⟨_, rfl, rfl⟩
      | none =>
        rcases same.create .directory with ⟨errno, here, there⟩ | ⟨place, below, here, there⟩
        · rw [here, there]
          exact .inl ⟨_, rfl, rfl⟩
        · rw [here, there]
          exact .inr ⟨place, below, rfl, rfl⟩
  unfold Disk.attempt
  rcases make with ⟨fault, here, there⟩ | ⟨place, below, here, there⟩
  · rw [here, there]
    dsimp only
    split
    · exact ⟨widens, rfl⟩
    · rw [same.settled]
      exact ⟨by rw [settled_disk]; exact widens, rfl⟩
  · rw [here, there]
    exact ⟨widens.put below _, rfl⟩

theorem Path.IsPlace.ends (proper : Path.IsPlace place) (named : place ≠ []) :
    Tree.endsInName (Path.ofPlace place) = true := by
  have name : (Path.ofPlace place).name = place.getLast named := by
    rw [Path.name, Path.ofPlace, List.getLast?_eq_some_getLast named]
    rfl
  have member := List.getLast_mem named
  have leads := (proper.names _ member).leads
  rw [Tree.endsInName, name, Bool.and_eq_true, decide_eq_true_eq, decide_eq_true_eq]
  refine ⟨fun empty => ?_, fun parent => proper.noParent (parent ▸ member)⟩
  rw [empty] at leads
  cases leads

theorem attempt_follows (proper : Path.IsPlace place)
    (clean : (Path.ofPlace place).hasNull = false) (widens : Widens extra disk wider)
    (reached : disk.tree.locate disk.here (Path.ofPlace place) ≠ .error .missing) :
    Follow extra (disk.attempt (Path.ofPlace place)) (wider.attempt (Path.ofPlace place)) := by
  have resolved := Path.resolve_ofPlace proper.noParent disk.here
  rcases widens.cases place with kept | ⟨⟨_, allowed⟩, vacant, there⟩
  · exact (widens.sameAt reached (by rw [resolved]; exact kept)).attempt widens
  · cases located : disk.tree.locate disk.here (Path.ofPlace place) with
    | error errno =>
      have same : SameAt disk wider (Path.ofPlace place) :=
        ⟨widens.locate _ reached, fun place found => by cases located.symm.trans found⟩
      exact same.attempt widens
    | ok found =>
      obtain rfl : found = place := (Tree.locate_eq_resolve located).trans resolved
      -- made here, where the wider disk has it already
      have below := Tree.below_of_vacant vacant
      have located' := (widens.locate _ reached).trans located
      have made : disk.makeDirectory (Path.ofPlace found) =
          .ok { disk with tree := disk.tree.put found .directory } := by
        simp [makeDirectory, clean, allowed, Tree.create, Tree.vacancy, located, vacant,
          proper.ends below, Except.map]
      have taken : wider.makeDirectory (Path.ofPlace found) =
          .error (.step .exists (Path.ofPlace found).toString) := by
        simp [makeDirectory, clean, widens.refuses, allowed, Tree.create, Tree.vacancy, located',
          there, Except.map]
      have directory : wider.isDirectory (Path.ofPlace found) = .ok true := by
        refine isDirectory_iff.mpr ⟨clean, ?_⟩
        simp only [Tree.status, located', there]
      have other : Fault.step .exists (Path.ofPlace found).toString ≠ .nullByte := by
        intro same
        cases same
      have settled : wider.attempt (Path.ofPlace found) = (wider, none) := by
        rw [attempt, taken]
        exact settled_directory other directory
      rw [attempt, made, settled]
      exact ⟨widens.fill below there, rfl⟩

theorem attempt_denied (plain : disk.RefusesPlainly) (clean : path.hasNull = false) {errno : Errno}
    (denied : disk.refuses .makeDirectory path.toString = some errno) :
    disk.attempt path = disk.settled path (.step errno path.toString) := by
  have refused : disk.makeDirectory path = .error (.step errno path.toString) := by
    simp [makeDirectory, clean, denied]
  have other : ¬ (Fault.step errno path.toString).isMissing = true := by
    intro missing
    cases errno <;> cases missing
    exact plain _ denied
  rw [attempt, refused]
  exact if_neg other

/-- A directory comes to the same once its parent is there on both disks. -/
theorem attempt_made {made made' : Disk} (proper : Path.IsPlace place)
    (clean : (Path.ofPlace place).hasNull = false) (named : place ≠ [])
    (there : disk.makeDirectories (Path.ofPlace place).parent = (made, none))
    (widens : Widens extra made made') :
    Follow extra (made.attempt (Path.ofPlace place)) (made'.attempt (Path.ofPlace place)) :=
  attempt_follows proper clean widens (Tree.locate_reached rfl named
    (isDirectory_iff.mp (makeDirectories_isDirectory there)).2)

namespace Follow

variable (follow : Follow extra (disk.makeDirectories (Path.ofPlace place).parent)
    (wider.makeDirectories (Path.ofPlace place).parent))
  (proper : Path.IsPlace place) (clean : (Path.ofPlace place).hasNull = false)
  (named : place ≠ []) (lacks : disk.Lacks (Path.ofPlace place))
include follow proper clean named lacks

/-- Both disks lack the parent, and make it first. -/
theorem lacking (lacks' : wider.Lacks (Path.ofPlace place)) :
    Follow extra (disk.makeDirectories (Path.ofPlace place))
      (wider.makeDirectories (Path.ofPlace place)) := by
  rw [makeDirectories_lacks lacks named, makeDirectories_lacks lacks' named]
  cases here : disk.makeDirectories (Path.ofPlace place).parent with
  | mk made result =>
  cases there : wider.makeDirectories (Path.ofPlace place).parent with
  | mk made' result' =>
  rw [here, there] at follow
  obtain ⟨widens, failed⟩ := follow
  cases result with
  | none =>
    obtain rfl : result' = none := by simpa using failed
    exact attempt_made proper clean named here widens
  | some fault =>
    obtain ⟨fault', rfl⟩ := Option.isSome_iff_exists.mp failed
    exact ⟨widens, rfl⟩

/-- The wider disk has the parent already, or has something else in its place. -/
theorem reached
    (attempted : wider.makeDirectories (Path.ofPlace place) = wider.attempt (Path.ofPlace place))
    (unmade : (wider.makeDirectories (Path.ofPlace place).parent).1 = wider)
    (parents : (wider.attempt (Path.ofPlace place)).2 = none →
      (wider.makeDirectories (Path.ofPlace place).parent).2 = none) :
    Follow extra (disk.makeDirectories (Path.ofPlace place))
      (wider.makeDirectories (Path.ofPlace place)) := by
  obtain ⟨widens, failed⟩ := follow
  rw [unmade] at widens
  rw [makeDirectories_lacks lacks named, attempted]
  cases here : disk.makeDirectories (Path.ofPlace place).parent with
  | mk made result =>
  rw [here] at widens failed
  cases result with
  | none => exact attempt_made proper clean named here widens
  | some fault =>
    cases outcome : (wider.attempt (Path.ofPlace place)).2 with
    | none =>
      rw [parents outcome] at failed
      cases failed
    | some fault' =>
      refine ⟨?_, by rw [outcome]; rfl⟩
      rw [attempt_failed outcome]
      exact widens

end Follow

section Making

variable (widens : Widens extra disk wider) (plain : disk.RefusesPlainly)
  (proper : Path.IsPlace place) (clean : (Path.ofPlace place).hasNull = false)
include widens plain proper clean

theorem makeDirectories_follows_reached
    (reached : disk.tree.locate disk.here (Path.ofPlace place) ≠ .error .missing) :
    Follow extra (disk.makeDirectories (Path.ofPlace place))
      (wider.makeDirectories (Path.ofPlace place)) := by
  have plain' : wider.RefusesPlainly := fun text => widens.refuses ▸ plain text
  rw [makeDirectories_attempt, makeDirectories_attempt]
  · exact attempt_follows proper clean widens reached
  · intro lacks
    have missing := ((lacks_iff plain').mp lacks).2.2
    rw [widens.locate _ reached] at missing
    exact reached missing
  · exact fun lacks => reached ((lacks_iff plain).mp lacks).2.2

/-- Where the system makes no directory, a path that leads nowhere fails on both disks. -/
theorem makeDirectories_follows_denied (rooted : disk.tree.Rooted)
    (missing : disk.tree.locate disk.here (Path.ofPlace place) = .error .missing) {errno : Errno}
    (denied : disk.refuses .makeDirectory (Path.ofPlace place).toString = some errno) :
    Follow extra (disk.makeDirectories (Path.ofPlace place))
      (wider.makeDirectories (Path.ofPlace place)) := by
  have plain' : wider.RefusesPlainly := fun text => widens.refuses ▸ plain text
  have denied' := denied
  rw [← widens.refuses] at denied'
  have none : disk.isDirectory (Path.ofPlace place) ≠ .ok true := fun found => by
    have located := (Tree.status_locate (isDirectory_iff.mp found).2).1
    cases located.symm.trans missing
  have none' : wider.isDirectory (Path.ofPlace place) ≠ .ok true := fun found => by
    have there := (Tree.status_locate (isDirectory_iff.mp found).2).2
    rw [Path.resolve_ofPlace proper.noParent] at there
    -- the system did not make it, so it is there on both disks, and the way to it with it
    have kept := (widens.cases place).resolve_right fun gap => by
      cases gap.1.2.symm.trans denied
    rw [kept] at there
    rw [Tree.locate] at missing
    split at missing
    · cases missing
    · exact rooted.walk_there [] proper.noParent there missing
  obtain ⟨trouble, here⟩ := settled_some (.step errno (Path.ofPlace place).toString) none
  obtain ⟨trouble', there⟩ := settled_some (.step errno (Path.ofPlace place).toString) none'
  rw [makeDirectories_attempt, makeDirectories_attempt, attempt_denied plain clean denied,
    attempt_denied plain' clean denied', here, there]
  · exact ⟨widens, rfl⟩
  · exact fun lacks => by cases denied'.symm.trans ((lacks_iff plain').mp lacks).2.1
  · exact fun lacks => by cases denied.symm.trans ((lacks_iff plain).mp lacks).2.1

/-- Directories below parents that come to the same. -/
theorem makeDirectories_follows_below (named : place ≠ [])
    (lacks : disk.Lacks (Path.ofPlace place))
    (follow : Follow extra (disk.makeDirectories (Path.ofPlace place).parent)
      (wider.makeDirectories (Path.ofPlace place).parent)) :
    Follow extra (disk.makeDirectories (Path.ofPlace place))
      (wider.makeDirectories (Path.ofPlace place)) := by
  have plain' : wider.RefusesPlainly := fun text => widens.refuses ▸ plain text
  by_cases lacks' : wider.Lacks (Path.ofPlace place)
  · exact follow.lacking proper clean named lacks lacks'
  · obtain ⟨_, allowed, missing⟩ := (lacks_iff plain).mp lacks
    have short : ¬ Tree.pathLimit ≤ (Path.ofPlace place).toString.utf8ByteSize := by
      intro long
      rw [Tree.locate, if_pos long] at missing
      cases missing
    have reached' : wider.tree.locate wider.here (Path.ofPlace place) ≠ .error .missing :=
      fun missing' => lacks' ((lacks_iff plain').mpr ⟨clean, widens.refuses ▸ allowed, missing'⟩)
    obtain ⟨attempted, unmade, parents⟩ := makeDirectories_reached plain' rfl named short reached'
    exact follow.reached proper clean named lacks attempted unmade parents

end Making

/-- Making directories comes to the same on both disks. -/
theorem makeDirectories_follows (widens : Widens extra disk wider) (plain : disk.RefusesPlainly)
    (rooted : disk.tree.Rooted) (proper : Path.IsPlace place)
    (clean : (Path.ofPlace place).hasNull = false) :
    Follow extra (disk.makeDirectories (Path.ofPlace place))
      (wider.makeDirectories (Path.ofPlace place)) := by
  -- on the way to the place, from the root down
  induction place using List.reverseRecOn with
  | nil =>
    refine makeDirectories_follows_reached widens plain proper clean ?_
    unfold Tree.locate
    split <;> exact nofun
  | append_singleton front name ih =>
    have parent : (Path.ofPlace (front ++ [name])).parent = Path.ofPlace front := by
      simp [Path.parent, Path.ofPlace]
    have above : (Path.ofPlace front).hasNull = false := by
      refine eq_false_of_ne_true fun null => ?_
      rw [Path.hasNull_of_parent (parent.symm ▸ null)] at clean
      cases clean
    have follow := ih (by simpa using proper.dropLast) above
    by_cases missing : disk.tree.locate disk.here (Path.ofPlace (front ++ [name])) =
        .error .missing
    case neg => exact makeDirectories_follows_reached widens plain proper clean missing
    cases denied : disk.refuses .makeDirectory (Path.ofPlace (front ++ [name])).toString with
    | some errno =>
      exact makeDirectories_follows_denied widens plain proper clean rooted missing denied
    | none =>
      refine makeDirectories_follows_below widens plain proper clean (by simp) ?_ ?_
      · exact (lacks_iff plain).mpr ⟨clean, denied, missing⟩
      · rw [parent]
        exact follow

end RailSpec.Disk
