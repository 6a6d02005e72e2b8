import RailSpec.Proofs.Disk.Look
import RailSpec.Proofs.Disk.Making
import RailSpec.Proofs.Disk.Rooted
import RailSpec.Proofs.Disk.Wider.Directories

/-!
Writes that fail because something exists already. That is said of a target that may not be
overwritten, but also of a file that stands where a directory is needed, of temporary names of which
none is free, and of what the system itself calls so.
-/

namespace RailSpec.Disk

variable {disk made filled after : Disk} {path temporary : Path} {content : ByteArray}
  {overwrite : Bool} {fault trouble : Fault} {errno : Errno} {place : Place}

/-- There is something at a path once its parents are made. -/
def Taken (disk : Disk) (path : Path) : Prop :=
  ∃ made entry, disk.makeDirectories path.parent = (made, none) ∧ made.Holds path entry

/-- A directory cannot be had because something exists already that is none. -/
def Obstructed (disk : Disk) (path : Path) : Prop :=
  ∃ made fault, disk.makeDirectories path = (made, some fault) ∧ fault.isPresence = true

/-- A write gets past the look for its target: its parents are made, and whatever is there may be
overwritten. -/
structure Passes (disk : Disk) (path : Path) (overwrite : Bool) (made : Disk) : Prop where
  above : disk.makeDirectories path.parent = (made, none)
  looked : ∃ present, made.present path = .ok present ∧ (present && !overwrite) = false

/-- Something exists already, but what is said of it does not concern the target. -/
inductive Collides (disk : Disk) (path : Path) (overwrite : Bool) : Prop where
  | parents (obstructed : disk.Obstructed path.parent)
  | names {made : Disk} (passes : disk.Passes path overwrite made)
    (spent : made.createTemporary path made.marks = .error .noTemporaryName)
  | filling {made filled : Disk} {temporary : Path} (passes : disk.Passes path overwrite made)
    (named : made.createTemporary path made.marks = .ok (filled, temporary))
    (refused : filled.refuses .writeFile temporary.toString = some .exists)
  | moving {made filled : Disk} {temporary : Path} (passes : disk.Passes path overwrite made)
    (named : made.createTemporary path made.marks = .ok (filled, temporary))
    (allowed : filled.refuses .writeFile temporary.toString = none)
    (refused : filled.refuses .renameFile path.toString = some .exists)

/-! Steps that never say so of their own. -/

namespace Tree

variable {tree later : Tree} {here next : Place} {names : List String} {name : String}

theorem step_error (stopped : tree.step place name = .error errno) : errno ≠ .exists := by
  rintro rfl
  unfold step at stopped
  split at stopped
  · split at stopped
    · cases stopped
    · split at stopped <;> cases stopped
  · cases stopped
  · cases stopped

theorem walk_error (stopped : tree.walk place names = .error errno) : errno ≠ .exists := by
  induction names generalizing place with
  | nil => cases stopped
  | cons name rest ih =>
    rw [walk] at stopped
    split at stopped
    · exact ih stopped
    · rename_i other found
      cases stopped
      exact step_error found

theorem locate_error (stopped : tree.locate here path = .error errno) : errno ≠ .exists := by
  unfold locate at stopped
  split at stopped
  · cases stopped
    exact nofun
  · exact walk_error stopped

theorem rename_error {source : Place} (stopped : tree.rename here source content path = .error errno) :
    errno ≠ .exists := by
  unfold rename at stopped
  split at stopped
  · rename_i other found
    cases stopped
    exact locate_error found
  · split at stopped
    · cases stopped
      exact nofun
    · split at stopped
      · cases stopped
        exact nofun
      · cases stopped

theorem status_error (stopped : tree.status here path = .error errno) : errno ≠ .exists := by
  unfold status at stopped
  split at stopped
  · rename_i other found
    cases stopped
    exact locate_error found
  · split at stopped
    · cases stopped
    · cases stopped
      exact nofun

end Tree

theorem isPresence_step {text : String} :
    (Fault.step errno text).isPresence = true ↔ errno = .exists := by
  cases errno <;> simp [Fault.isPresence]

/-- What is said of a path that cannot be looked at is not that something exists. -/
theorem status_presence {text : String} (stopped : disk.tree.status disk.here path = .error errno) :
    (Fault.step errno text).isPresence = false := by
  apply eq_false_of_ne_true
  intro presence
  exact Tree.status_error stopped (isPresence_step.mp presence)

theorem isKind_presence {kind : Entry → Bool} (failed : disk.isKind path kind = .error fault) :
    fault.isPresence = false := by
  unfold isKind at failed
  split at failed
  · cases failed
  · split at failed
    · cases failed
    · cases failed
    · cases failed
    · rename_i errno stopped
      cases failed
      exact status_presence stopped

theorem present_presence (failed : disk.present path = .error fault) :
    fault.isPresence = false := by
  unfold present at failed
  split at failed
  · cases failed
  · split at failed
    · cases failed
    · cases failed
    · cases failed
    · rename_i errno stopped
      cases failed
      exact status_presence stopped

theorem holds_of_present (found : disk.present path = .ok true) :
    ∃ entry, disk.Holds path entry := by
  unfold present at found
  split at found
  · cases found
  · rename_i clean
    split at found
    · rename_i entry status
      exact ⟨entry, eq_false_of_ne_true clean, status⟩
    · cases found
    · cases found
    · cases found

theorem createTemporary_presence {marks : List String} (presence : fault.isPresence = true)
    (failed : disk.createTemporary path marks = .error fault) : fault = .noTemporaryName := by
  induction marks with
  | nil => exact (Except.error.inj failed).symm
  | cons mark rest ih =>
    rw [createTemporary] at failed
    split at failed
    · cases failed
      cases presence
    · split at failed
      · exact ih failed
      · exact ih failed
      · rename_i errno other _
        cases failed
        exact absurd (isPresence_step.mp presence) other
      · rename_i errno other _ _
        cases failed
        exact absurd (isPresence_step.mp presence) other
      · cases failed

/-! How a write fails that says so. -/

theorem Passes.write_eq (passes : disk.Passes path overwrite made) (content : ByteArray) :
    disk.write path content overwrite =
      match made.createTemporary path made.marks with
      | .error fault => (made, .error fault)
      | .ok (filled, temporary) => filled.fillAndMove temporary path content := by
  obtain ⟨present, found, allowed⟩ := passes.looked
  rw [write, passes.above]
  dsimp only
  rw [found]
  dsimp only
  rw [allowed]
  exact if_neg Bool.false_ne_true

theorem Taken.write_eq (taken : disk.Taken path) (content : ByteArray) :
    ∃ made, disk.write path content false = (made, .error (.present path.toString)) := by
  obtain ⟨made, entry, above, held⟩ := taken
  refine ⟨made, ?_⟩
  rw [write, above]
  dsimp only
  rw [held.present_eq]
  rfl

/-- What is taken and may not be overwritten keeps a write from passing. -/
theorem Passes.not_taken (passes : disk.Passes path false made) : ¬ disk.Taken path := by
  rintro ⟨made', entry, above, held⟩
  cases passes.above.symm.trans above
  obtain ⟨present, found, allowed⟩ := passes.looked
  cases held.present_eq.symm.trans found
  cases allowed

/-- A target that is rightly said to exist is not one that something else is said of. -/
theorem Collides.not_taken (collides : disk.Collides path false) : ¬ disk.Taken path := by
  cases collides with
  | parents obstructed =>
    rintro ⟨made, entry, above, held⟩
    obtain ⟨made', fault, stopped, _⟩ := obstructed
    cases above.symm.trans stopped
  | names passes => exact passes.not_taken
  | filling passes => exact passes.not_taken
  | moving passes => exact passes.not_taken

theorem Collides.write_eq (collides : disk.Collides path overwrite) (content : ByteArray) :
    ∃ after fault, disk.write path content overwrite = (after, .error fault) ∧
      fault.isPresence = true := by
  cases collides with
  | parents obstructed =>
    obtain ⟨made, fault, stopped, presence⟩ := obstructed
    exact ⟨made, fault, by rw [write, stopped], presence⟩
  | names passes spent => exact ⟨_, _, by rw [passes.write_eq, spent], rfl⟩
  | @filling made filled temporary passes named refused =>
    refine ⟨{ filled with tree := filled.tree.erase (temporary.resolve filled.here) },
      .filling .exists, ?_, rfl⟩
    rw [passes.write_eq, named]
    dsimp only [fillAndMove]
    rw [refused]
  | @moving made filled temporary passes named allowed refused =>
    refine ⟨{ filled with tree := filled.tree.erase (temporary.resolve filled.here) },
      .renaming .exists temporary.toString path.toString, ?_, rfl⟩
    rw [passes.write_eq, named]
    dsimp only [fillAndMove]
    rw [allowed, refused]

theorem fillAndMove_presence (presence : fault.isPresence = true)
    (failed : (filled.fillAndMove temporary path content).2 = .error fault) :
    filled.refuses .writeFile temporary.toString = some .exists ∨
      filled.refuses .writeFile temporary.toString = none ∧
        filled.refuses .renameFile path.toString = some .exists := by
  unfold fillAndMove at failed
  dsimp only at failed
  split at failed
  · rename_i errno refused
    cases failed
    cases errno <;> first | exact .inl refused | cases presence
  · rename_i allowed
    split at failed
    · rename_i errno refused
      cases failed
      cases errno <;> first | exact .inr ⟨allowed, refused⟩ | cases presence
    · rename_i errno _ stopped
      cases failed
      cases errno <;> first | exact absurd rfl (Tree.rename_error stopped) | cases presence
    · cases failed

/-- A write fails because something exists just if that is the target, which may not be overwritten,
or something that does not concern the target. -/
theorem write_presence_iff : (∃ after fault,
      disk.write path content overwrite = (after, .error fault) ∧ fault.isPresence = true) ↔
    overwrite = false ∧ disk.Taken path ∨ disk.Collides path overwrite := by
  constructor
  · rintro ⟨after, fault, done, presence⟩
    obtain ⟨made, result, above⟩ : ∃ made result, disk.makeDirectories path.parent = (made, result) :=
      ⟨_, _, rfl⟩
    cases result with
    | some trouble =>
      rw [write, above] at done
      cases done
      exact .inr (.parents ⟨_, _, above, presence⟩)
    | none =>
      cases looked : Disk.present made path with
      | error trouble =>
        rw [write, above] at done
        dsimp only at done
        rw [looked] at done
        cases done
        rw [present_presence looked] at presence
        cases presence
      | ok present =>
        cases stopped : present && !overwrite with
        | true =>
          obtain ⟨rfl, guarded⟩ := (Bool.and_eq_true ..).mp stopped
          obtain ⟨entry, held⟩ := holds_of_present looked
          exact .inl ⟨by simpa using guarded, made, entry, above, held⟩
        | false =>
          have passes : disk.Passes path overwrite made := ⟨above, present, looked, stopped⟩
          rw [passes.write_eq] at done
          cases named : made.createTemporary path made.marks with
          | error trouble =>
            rw [named] at done
            cases done
            obtain rfl := createTemporary_presence presence named
            exact .inr (.names passes named)
          | ok created =>
            obtain ⟨filled, temporary⟩ := created
            rw [named] at done
            rcases fillAndMove_presence presence (congrArg Prod.snd done) with
              refused | ⟨allowed, refused⟩
            · exact .inr (.filling passes named refused)
            · exact .inr (.moving passes named allowed refused)
  · rintro (⟨rfl, taken⟩ | collides)
    · obtain ⟨made, done⟩ := taken.write_eq content
      exact ⟨made, _, done, rfl⟩
    · exact collides.write_eq content

/-! When a directory cannot be had. -/

/-- The system never says of its own that a directory exists. -/
def RefusesOtherwise (disk : Disk) : Prop :=
  ∀ text, disk.refuses .makeDirectory text ≠ some .exists

theorem holds_of_locate {entry : Entry} (clean : path.hasNull = false)
    (located : disk.tree.locate disk.here path = .ok (path.resolve disk.here))
    (there : disk.tree.found? (path.resolve disk.here) = some entry) : disk.Holds path entry := by
  refine ⟨clean, ?_⟩
  rw [Tree.status, located]
  dsimp only
  rw [there]

theorem isMissing_of_presence (presence : fault.isPresence = true) : ¬ fault.isMissing = true := by
  cases fault with
  | step errno text =>
    rw [isPresence_step] at presence
    rw [presence]
    exact nofun
  | _ => exact nofun

/-- A fault in making a directory is kept where there is none. -/
theorem settled_presence (failed : disk.settled path fault = (after, some trouble))
    (presence : trouble.isPresence = true) :
    trouble = fault ∧ disk.isDirectory path = .ok false := by
  unfold settled at failed
  split at failed
  · cases failed
    cases presence
  · rename_i looked
    cases failed
    rw [isKind_presence looked] at presence
    cases presence
  · cases failed
  · rename_i looked
    cases failed
    exact ⟨rfl, looked⟩

theorem settled_kept (noDirectory : disk.isDirectory path = .ok false) :
    disk.settled path fault = (disk, some fault) := by
  unfold settled
  rw [noDirectory]
  cases fault <;> rfl

theorem found?_ne_none_of_taken (proper : Path.IsPlace place)
    (there : Tree.endsInName (Path.ofPlace place) = true → disk.tree.found? place ≠ none) :
    disk.tree.found? place ≠ none := by
  cases place with
  | nil => exact nofun
  | cons name rest => exact there (proper.ends (List.cons_ne_nil name rest))

/-- A single directory is not made for a file in its place, and for nothing else that exists. -/
theorem attempt_presence (otherwise : disk.RefusesOtherwise) (proper : Path.IsPlace place)
    (failed : disk.attempt (Path.ofPlace place) = (after, some fault))
    (presence : fault.isPresence = true) :
    disk.refuses .makeDirectory (Path.ofPlace place).toString = none ∧
      ∃ content, disk.Holds (Path.ofPlace place) (.file content) := by
  have making := makeDirectory_making disk (Path.ofPlace place)
  unfold attempt at failed
  split at failed
  · cases failed
  · rename_i trouble found
    rw [found] at making
    split at failed
    · rename_i missing
      cases failed
      exact absurd missing (isMissing_of_presence presence)
    · obtain ⟨rfl, noDirectory⟩ := settled_presence failed presence
      cases making with
      | nullByte => cases presence
      | refused clean denied =>
        rw [isPresence_step] at presence
        exact absurd (presence ▸ denied) (otherwise _)
      | astray clean allowed stopped =>
        exact absurd (isPresence_step.mp presence) (Tree.locate_error stopped)
      | taken clean allowed located there =>
        rw [Path.resolve_ofPlace proper.noParent] at located there
        refine ⟨allowed, ?_⟩
        cases held : disk.tree.found? place with
        | none => exact absurd held (found?_ne_none_of_taken proper there)
        | some entry =>
          have holds : disk.Holds (Path.ofPlace place) entry := by
            refine holds_of_locate clean ?_ ?_ <;> rw [Path.resolve_ofPlace proper.noParent]
            · exact located
            · exact held
          cases entry with
          | file content => exact ⟨content, holds⟩
          | directory =>
            rw [isDirectory_iff.mpr ⟨clean, holds.status⟩] at noDirectory
            cases noDirectory

/-- Nothing is missing on the way to what is there. -/
theorem locate_there {entry : Entry} (rooted : disk.tree.Rooted) (down : Path.parentName ∉ place)
    (there : disk.tree.found? place = some entry) :
    disk.tree.locate disk.here (Path.ofPlace place) ≠ .error .missing := by
  unfold Tree.locate
  split
  · exact nofun
  · exact rooted.walk_there [] down there

/-- Below a file nothing is said to be missing. -/
theorem locate_below_file (absolute : path.isAbsolute = true)
    (named : path.names ≠ []) (above : disk.Holds path.parent (.file content)) :
    disk.tree.locate disk.here path ≠ .error .missing := by
  intro missing
  have short : ¬ Tree.pathLimit ≤ path.toString.utf8ByteSize := by
    intro long
    rw [Tree.locate, if_pos long] at missing
    cases missing
  obtain ⟨name, way⟩ := Tree.locate_parent disk.tree disk.here absolute named short
  obtain ⟨located, there⟩ := Tree.status_locate above.status
  rw [missing, located] at way
  dsimp only at way
  rw [Tree.step, there] at way
  cases way

theorem obstructed_of_holds (plain : disk.RefusesPlainly)
    (allowed : disk.refuses .makeDirectory path.toString = none)
    (held : disk.Holds path (.file content)) : disk.Obstructed path := by
  obtain ⟨located, there⟩ := Tree.status_locate held.status
  have reached : ¬ disk.Lacks path := fun lacks => by
    cases located.symm.trans ((lacks_iff plain).mp lacks).2.2
  have noDirectory : disk.isDirectory path = .ok false := by
    rw [isDirectory, isKind, held.clean, held.status]
    rfl
  have making := makeDirectory_making disk path
  cases found : disk.makeDirectory path with
  | ok made =>
    rw [found] at making
    cases making with
    | made clean allowed located ends vacant => cases there.symm.trans vacant
  | error fault =>
    refine ⟨disk, .step .exists path.toString, ?_, rfl⟩
    rw [makeDirectories_attempt reached, attempt, found]
    rw [found] at making
    cases making with
    | nullByte null => cases held.clean.symm.trans null
    | refused clean denied => cases allowed.symm.trans denied
    | astray clean allowed stopped => cases located.symm.trans stopped
    | taken =>
      dsimp only
      rw [if_neg (isMissing_of_presence rfl), settled_kept noDirectory]

/-- A directory cannot be had for something that exists just if a file has its place. -/
theorem obstructed_iff (rooted : disk.tree.Rooted) (plain : disk.RefusesPlainly)
    (otherwise : disk.RefusesOtherwise) (proper : Path.IsPlace place) :
    disk.Obstructed (Path.ofPlace place) ↔
      disk.refuses .makeDirectory (Path.ofPlace place).toString = none ∧
        ∃ content, disk.Holds (Path.ofPlace place) (.file content) := by
  refine ⟨?_, fun ⟨allowed, content, held⟩ => obstructed_of_holds plain allowed held⟩
  rintro ⟨after, fault, stopped, presence⟩
  -- on the way to the place, from the root down
  induction place using List.reverseRecOn generalizing after with
  | nil =>
    rw [makeDirectories_attempt] at stopped
    · exact attempt_presence otherwise proper stopped presence
    · intro lacks
      exact locate_there rooted proper.noParent rfl ((lacks_iff plain).mp lacks).2.2
  | append_singleton front name ih =>
    by_cases lacks : disk.Lacks (Path.ofPlace (front ++ [name]))
    case neg =>
      rw [makeDirectories_attempt lacks] at stopped
      exact attempt_presence otherwise proper stopped presence
    have missing := ((lacks_iff plain).mp lacks).2.2
    have parent : (Path.ofPlace (front ++ [name])).parent = Path.ofPlace front := by
      simp [Path.parent, Path.ofPlace]
    have named : (Path.ofPlace (front ++ [name])).names ≠ [] := by simp [Path.ofPlace]
    rw [makeDirectories_lacks lacks named, parent] at stopped
    split at stopped
    · rename_i made trouble above
      cases stopped
      obtain ⟨_, content, held⟩ := ih (by simpa using proper.dropLast) after above
      rw [← parent] at held
      exact absurd missing (locate_below_file rfl named held)
    · rename_i made above
      have paved := makeDirectories_paved disk (Path.ofPlace front)
      rw [above] at paved
      have otherwise' : made.RefusesOtherwise := fun text => paved.refuses ▸ otherwise text
      obtain ⟨_, content, held⟩ := attempt_presence otherwise' proper stopped presence
      -- the parents are directories, so the file was there before them
      have there := (Tree.status_locate held.status).2
      rw [Path.resolve_ofPlace proper.noParent] at there
      exact absurd missing (locate_there rooted proper.noParent (paved.noFile there))

/-- A target is taken if its parents can be had and it is there, be it before they are made or
after. -/
theorem taken_iff (rooted : disk.tree.Rooted) (proper : Path.IsPlace place) (named : place ≠ []) :
    disk.Taken (Path.ofPlace place) ↔
      (disk.makeDirectories (Path.ofPlace place).parent).2 = none ∧
        ∃ entry, disk.Holds (Path.ofPlace place) entry := by
  have resolved := Path.resolve_ofPlace proper.noParent
  have paved := makeDirectories_paved disk (Path.ofPlace place).parent
  have widens : Widens (· <+: place.dropLast) disk
      (disk.makeDirectories (Path.ofPlace place).parent).1 :=
    paved.widens proper.dropLast.noParent
  constructor
  · rintro ⟨made, entry, above, held⟩
    rw [above] at widens
    obtain ⟨located, there⟩ := Tree.status_locate held.status
    rw [resolved] at there
    have apart : ¬ place <+: place.dropLast := by
      intro within
      have shorter := within.length_le
      have some := List.length_pos_iff.mpr named
      rw [List.length_dropLast] at shorter
      omega
    have before : disk.tree.found? place = some entry := (widens.kept apart).symm.trans there
    have same := widens.locate _ (locate_there rooted proper.noParent before)
    refine ⟨congrArg Prod.snd above, entry, holds_of_locate held.clean ?_ ?_⟩
    · rw [← same, located, resolved, resolved]
    · rw [resolved]
      exact before
  · rintro ⟨above, entry, held⟩
    obtain ⟨located, there⟩ := Tree.status_locate held.status
    have reached : disk.tree.locate disk.here (Path.ofPlace place) ≠ .error .missing := by
      rw [located]
      exact nofun
    refine ⟨_, entry, Prod.ext rfl above, holds_of_locate held.clean ?_ ?_⟩
    · rw [widens.locate _ reached, located, resolved, resolved]
    · rw [resolved] at there ⊢
      exact paved.stays there

end RailSpec.Disk
