import RailSpec.Proofs.Disk.Null

/-!
When directories are made. One is made where its parent is a directory and nothing else is there;
with all its parents a directory can be made unless the way to it is barred.
-/

namespace RailSpec.Disk

namespace Path

theorem joined_dropLast (names : List String) :
    (Text.joined "/" names.dropLast).utf8ByteSize ≤ (Text.joined "/" names).utf8ByteSize := by
  induction names with
  | nil => exact Nat.le_refl _
  | cons name rest ih =>
    cases rest with
    | nil => exact Nat.zero_le _
    | cons next others =>
      have whole : Text.joined "/" (name :: next :: others) =
          name ++ "/" ++ Text.joined "/" (next :: others) := rfl
      rw [List.dropLast_cons_cons, whole]
      cases above : (next :: others).dropLast with
      | nil =>
        simp only [Text.joined, String.utf8ByteSize_append]
        omega
      | cons second more =>
        have part : Text.joined "/" (name :: second :: more) =
            name ++ "/" ++ Text.joined "/" (second :: more) := rfl
        rw [above] at ih
        rw [part]
        simp only [String.utf8ByteSize_append]
        omega

/-- The text of a path from a root is no shorter than that of its parent. -/
theorem toString_parent {path : Path} (absolute : path.isAbsolute = true) :
    path.parent.toString.utf8ByteSize ≤ path.toString.utf8ByteSize := by
  have root : path.root ≠ "" := by simpa [isAbsolute] using absolute
  have shorter := joined_dropLast path.names
  rw [toString, toString, if_neg (by simp [parent, root]), if_neg (by simp [root])]
  simp only [parent, String.utf8ByteSize_append]
  omega

end Path

namespace Tree

variable {tree : Tree} {here place : Place} {path : Path} {names : List String} {name : String}

theorem walk_concat (tree : Tree) (place : Place) (names : List String) (name : String) :
    tree.walk place (names ++ [name]) =
      match tree.walk place names with
      | .ok next => tree.step next name
      | .error errno => .error errno := by
  induction names generalizing place with
  | nil => cases stepped : tree.step place name <;> simp [walk, stepped]
  | cons first rest ih =>
    rw [List.cons_append, walk, walk]
    cases tree.step place first with
    | ok next => exact ih next
    | error errno => rfl

theorem locate_long (short : ¬ pathLimit ≤ path.toString.utf8ByteSize) (tree : Tree)
    (here : Place) : tree.locate here path =
      tree.walk (if path.isAbsolute then [] else here) path.names :=
  if_neg short

/-- How the way to a path ends, by what is at its parent. -/
theorem locate_parent (tree : Tree) (here : Place) (absolute : path.isAbsolute = true)
    (named : path.names ≠ [])
    (short : ¬ pathLimit ≤ path.toString.utf8ByteSize) : ∃ name, tree.locate here path =
      match tree.locate here path.parent with
      | .ok above => tree.step above name
      | .error errno => .error errno := by
  have shorter : ¬ pathLimit ≤ path.parent.toString.utf8ByteSize := fun long =>
    short (Nat.le_trans long (Path.toString_parent absolute))
  have names := List.dropLast_concat_getLast named
  refine ⟨path.names.getLast named, ?_⟩
  have parent : path.parent.isAbsolute = path.isAbsolute := rfl
  rw [locate_long short, locate_long shorter, parent, Path.parent, ← walk_concat, names]

theorem locate_short {place : Place} (located : tree.locate here path = .ok place) :
    ¬ pathLimit ≤ path.toString.utf8ByteSize := by
  intro long
  rw [locate, if_pos long] at located
  cases located

/-- The parent of a path that leads somewhere is a directory. -/
theorem status_parent (absolute : path.isAbsolute = true) (named : path.names ≠ [])
    (located : tree.locate here path = .ok place) :
    tree.status here path.parent = .ok .directory := by
  obtain ⟨name, way⟩ := locate_parent tree here absolute named (locate_short located)
  rw [located] at way
  unfold status
  split
  · rename_i errno stopped
    rw [stopped] at way
    cases way
  · rename_i above found
    rw [found] at way
    unfold step at way
    dsimp only at way
    split at way
    · rename_i directory
      rw [directory]
    · cases way
    · cases way

/-- Below a directory nothing is missing on the way. -/
theorem locate_reached (absolute : path.isAbsolute = true) (named : path.names ≠ [])
    (above : tree.status here path.parent = .ok .directory) :
    tree.locate here path ≠ .error .missing := by
  by_cases short : pathLimit ≤ path.toString.utf8ByteSize
  · rw [locate, if_pos short]
    exact nofun
  · obtain ⟨name, way⟩ := locate_parent tree here absolute named short
    rw [way]
    unfold status at above
    split at above
    · cases above
    · rename_i place found
      rw [found]
      split at above
      · rename_i entry directory
        cases above
        dsimp only
        unfold step
        rw [directory]
        dsimp only
        split
        · exact nofun
        · split <;> exact nofun
      · cases above

theorem status_locate {entry : Entry}
    (found : tree.status here path = .ok entry) :
    tree.locate here path = .ok (path.resolve here) ∧
      tree.found? (path.resolve here) = some entry := by
  unfold status at found
  split at found
  · cases found
  · rename_i place located
    obtain rfl := locate_eq_resolve located
    split at found
    · rename_i there
      cases found
      exact ⟨located, there⟩
    · cases found

theorem status_stays {later : Tree} (stay : DirectoriesStay tree later)
    (there : tree.status here path = .ok .directory) : later.status here path = .ok .directory := by
  obtain ⟨located, directory⟩ := status_locate there
  rw [status, locate_stays stay located]
  dsimp only
  rw [stay _ directory]

end Tree

variable {disk made after : Disk} {path : Path} {fault : Fault}

theorem isDirectory_iff : disk.isDirectory path = .ok true ↔
    path.hasNull = false ∧ disk.tree.status disk.here path = .ok .directory := by
  unfold isDirectory isKind
  constructor
  · intro found
    split at found
    · cases found
    · rename_i clean
      split at found
      · rename_i entry there
        cases entry with
        | directory => exact ⟨eq_false_of_ne_true clean, there⟩
        | file content => cases found
      · cases found
      · cases found
      · cases found
  · rintro ⟨clean, there⟩
    rw [clean, there]
    rfl

/-- All ways in which the making of a single directory can end. -/
inductive Making (disk : Disk) (path : Path) : Except Fault Disk → Prop where
  | nullByte (null : path.hasNull = true) : Making disk path (.error .nullByte)
  | refused (clean : path.hasNull = false) {errno : Errno}
    (denied : disk.refuses .makeDirectory path.toString = some errno) :
    Making disk path (.error (.step errno path.toString))
  | astray (clean : path.hasNull = false)
    (allowed : disk.refuses .makeDirectory path.toString = none) {errno : Errno}
    (stopped : disk.tree.locate disk.here path = .error errno) :
    Making disk path (.error (.step errno path.toString))
  | taken (clean : path.hasNull = false)
    (allowed : disk.refuses .makeDirectory path.toString = none)
    (located : disk.tree.locate disk.here path = .ok (path.resolve disk.here))
    (there : Tree.endsInName path = true → disk.tree.found? (path.resolve disk.here) ≠ none) :
    Making disk path (.error (.step .exists path.toString))
  | made (clean : path.hasNull = false)
    (allowed : disk.refuses .makeDirectory path.toString = none)
    (located : disk.tree.locate disk.here path = .ok (path.resolve disk.here))
    (ends : Tree.endsInName path = true)
    (vacant : disk.tree.found? (path.resolve disk.here) = none) :
    Making disk path
      (.ok { disk with tree := disk.tree.put (path.resolve disk.here) .directory })

theorem makeDirectory_making (disk : Disk) (path : Path) :
    Making disk path (disk.makeDirectory path) := by
  unfold makeDirectory
  split
  · rename_i null
    exact .nullByte null
  · rename_i unnulled
    have clean := eq_false_of_ne_true unnulled
    split
    · rename_i errno denied
      exact .refused clean denied
    · rename_i allowed
      cases located : disk.tree.locate disk.here path with
      | error errno =>
        simp only [Tree.create, Tree.vacancy, located]
        exact .astray clean allowed located
      | ok place =>
        obtain rfl := Tree.locate_eq_resolve located
        by_cases free : Tree.endsInName path = true ∧
            disk.tree.found? (path.resolve disk.here) = none
        · simp only [Tree.create, Tree.vacancy, located, free]
          exact .made clean allowed located free.1 free.2
        · simp only [Tree.create, Tree.vacancy, located]
          rw [if_neg (by simpa using free)]
          exact .taken clean allowed located fun ends vacant => free ⟨ends, vacant⟩

/-- Making a directory, without its parents. -/
def attempt (disk : Disk) (path : Path) : Disk × Option Fault :=
  match disk.makeDirectory path with
  | .ok made => (made, none)
  | .error fault => if fault.isMissing then (disk, some fault) else disk.settled path fault

/-- A directory cannot be made because something on the way to it is missing. -/
def Lacks (disk : Disk) (path : Path) : Prop :=
  ∃ fault, disk.makeDirectory path = .error fault ∧ fault.isMissing = true

theorem makeDirectories_attempt (there : ¬ disk.Lacks path) :
    disk.makeDirectories path = disk.attempt path := by
  rw [makeDirectories, attempt]
  cases found : disk.makeDirectory path with
  | ok made => rfl
  | error fault =>
    have other : ¬ fault.isMissing = true := fun missing => there ⟨fault, found, missing⟩
    dsimp only
    rw [if_neg other, if_pos (by simp [other])]

theorem makeDirectories_lacks (lacks : disk.Lacks path) (named : path.names ≠ []) :
    disk.makeDirectories path =
      match disk.makeDirectories path.parent with
      | (made, some fault) => (made, some fault)
      | (made, none) => made.attempt path := by
  obtain ⟨fault, found, missing⟩ := lacks
  rw [makeDirectories, found]
  dsimp only
  rw [if_neg (by simp [missing]), if_neg named]
  rfl

theorem settled_directory (other : fault ≠ .nullByte) (there : disk.isDirectory path = .ok true) :
    disk.settled path fault = (disk, none) := by
  unfold settled
  split
  · exact absurd rfl other
  · rename_i found
    cases there.symm.trans found
  · rfl
  · rename_i found
    cases there.symm.trans found

theorem settled_none (done : disk.settled path fault = (after, none)) :
    after = disk ∧ disk.isDirectory path = .ok true := by
  unfold settled at done
  split at done <;> cases done
  rename_i found
  exact ⟨rfl, found⟩

theorem attempt_isDirectory (done : disk.attempt path = (after, none)) :
    after.isDirectory path = .ok true := by
  have making := makeDirectory_making disk path
  unfold attempt at done
  split at done
  · rename_i made found
    cases done
    rw [found] at making
    cases making with
    | made clean allowed located ends vacant =>
      refine isDirectory_iff.mpr ⟨clean, ?_⟩
      rw [Tree.status, Tree.locate_stays (Tree.stay_of_vacant vacant) located]
      dsimp only
      rw [Tree.found?_put_same _ _ (Tree.below_of_vacant vacant)]
  · split at done
    · cases done
    · obtain ⟨rfl, found⟩ := settled_none done
      exact found

/-- A directory that was made is there. -/
theorem makeDirectories_isDirectory (done : disk.makeDirectories path = (after, none)) :
    after.isDirectory path = .ok true := by
  by_cases lacks : disk.Lacks path
  · by_cases named : path.names = []
    · obtain ⟨fault, found, missing⟩ := lacks
      rw [makeDirectories, found] at done
      dsimp only at done
      rw [if_neg (by simp [missing]), if_pos named] at done
      cases done
    · rw [makeDirectories_lacks lacks named] at done
      split at done
      · cases done
      · exact attempt_isDirectory done
  · rw [makeDirectories_attempt lacks] at done
    exact attempt_isDirectory done

/-- A directory that can be had has a directory above it. -/
theorem attempt_parent (absolute : path.isAbsolute = true) (named : path.names ≠ [])
    (done : (disk.attempt path).2 = none) : disk.isDirectory path.parent = .ok true := by
  have making := makeDirectory_making disk path
  obtain ⟨clean, place, located⟩ : path.hasNull = false ∧ ∃ place,
      disk.tree.locate disk.here path = .ok place := by
    unfold attempt at done
    split at done
    · rename_i made found
      rw [found] at making
      cases making with
      | made clean allowed located => exact ⟨clean, _, located⟩
    · split at done
      · cases done
      · obtain ⟨_, found⟩ := settled_none (Prod.ext rfl done)
        obtain ⟨clean, there⟩ := isDirectory_iff.mp found
        exact ⟨clean, _, (Tree.status_locate there).1⟩
  refine isDirectory_iff.mpr ⟨eq_false_of_ne_true fun null => ?_,
    Tree.status_parent absolute named located⟩
  rw [Path.hasNull_of_parent null] at clean
  cases clean

section Plain

/-- The system never says of its own that something is missing. -/
def RefusesPlainly (disk : Disk) : Prop :=
  ∀ text, disk.refuses .makeDirectory text ≠ some .missing

variable (plain : disk.RefusesPlainly)
include plain

theorem lacks_iff : disk.Lacks path ↔ path.hasNull = false ∧
    disk.refuses .makeDirectory path.toString = none ∧
    disk.tree.locate disk.here path = .error .missing := by
  have making := makeDirectory_making disk path
  constructor
  · rintro ⟨fault, found, missing⟩
    rw [found] at making
    cases making with
    | nullByte => cases missing
    | @refused clean errno denied =>
      cases errno <;> cases missing
      exact absurd denied (plain _)
    | @astray clean allowed errno stopped =>
      cases errno <;> cases missing
      exact ⟨clean, allowed, stopped⟩
    | taken => cases missing
  · rintro ⟨clean, allowed, stopped⟩
    refine ⟨.step .missing path.toString, ?_, rfl⟩
    simp [makeDirectory, clean, allowed, Tree.create, Tree.vacancy, stopped, Except.map]

/-- Where there is a directory, nothing has to be made. -/
theorem makeDirectories_there (there : disk.isDirectory path = .ok true) :
    disk.makeDirectories path = (disk, none) := by
  obtain ⟨clean, status⟩ := isDirectory_iff.mp there
  obtain ⟨located, directory⟩ := Tree.status_locate status
  have reached : ¬ disk.Lacks path := fun lacks => by
    cases located.symm.trans ((lacks_iff plain).mp lacks).2.2
  have making := makeDirectory_making disk path
  rw [makeDirectories_attempt reached, attempt]
  split
  · rename_i made found
    rw [found] at making
    cases making with
    | made clean allowed located ends vacant => cases vacant.symm.trans directory
  · rename_i fault found
    rw [if_neg fun missing => reached ⟨fault, found, missing⟩]
    refine settled_directory ?_ there
    rintro rfl
    cases clean.symm.trans (makeDirectory_nullByte found)

/-- Nothing has to be made for the parent of a path that can be reached. -/
theorem makeDirectories_reached (absolute : path.isAbsolute = true) (named : path.names ≠ [])
    (short : ¬ Tree.pathLimit ≤ path.toString.utf8ByteSize)
    (reached : disk.tree.locate disk.here path ≠ .error .missing) :
    disk.makeDirectories path = disk.attempt path ∧
      (disk.makeDirectories path.parent).1 = disk ∧
      ((disk.attempt path).2 = none → (disk.makeDirectories path.parent).2 = none) := by
  obtain ⟨name, way⟩ := Tree.locate_parent disk.tree disk.here absolute named short
  have making := makeDirectory_making disk path.parent
  refine ⟨makeDirectories_attempt fun lacks => reached ((lacks_iff plain).mp lacks).2.2, ?_,
    fun done => ?_⟩
  · rw [way] at reached
    rw [makeDirectories_attempt, attempt]
    · split
      · rename_i made found
        rw [found] at making
        cases making with
        | made clean allowed located ends vacant =>
          rw [located] at reached
          dsimp only at reached
          rw [Tree.step, vacant] at reached
          exact absurd rfl reached
      · split
        · rfl
        · exact settled_disk ..
    · intro lacks
      rw [((lacks_iff plain).mp lacks).2.2] at reached
      exact reached rfl
  · rw [makeDirectories_there plain (attempt_parent absolute named done)]

end Plain

end RailSpec.Disk
