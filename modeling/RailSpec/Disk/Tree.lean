import RailSpec.Disk.Fault
import RailSpec.Disk.Path

/-!
File trees: what is at each place, how a path is followed, and the single steps that change a tree.
The root is always a directory; there are no links.
-/

namespace RailSpec.Disk

inductive Entry where
  | directory
  | file (content : ByteArray)

instance : DecidableEq Entry
  | .directory, .directory => .isTrue rfl
  | .directory, .file _ => .isFalse nofun
  | .file _, .directory => .isFalse nofun
  | .file content, .file other =>
    decidable_of_decidable_of_iff (p := content.data = other.data)
      ⟨fun same => congrArg Entry.file (ByteArray.ext same),
        fun same => congrArg ByteArray.data (Entry.file.inj same)⟩

/-- What there is besides the root, in no particular order. -/
structure Tree where
  entries : List (Place × Entry) := []

namespace Tree

def found? (tree : Tree) (place : Place) : Option Entry :=
  if place = [] then some .directory else tree.entries.lookup place

def erase (tree : Tree) (place : Place) : Tree :=
  ⟨tree.entries.filter (·.1 ≠ place)⟩

def put (tree : Tree) (place : Place) (entry : Entry) : Tree :=
  ⟨(place, entry) :: (tree.erase place).entries⟩

theorem lookup_erase_other {place other : Place} (different : other ≠ place) :
    (entries : List (Place × Entry)) →
      (entries.filter (·.1 ≠ place)).lookup other = entries.lookup other
  | [] => rfl
  | (key, value) :: rest => by
    have ih := lookup_erase_other different rest
    by_cases same : key = place
    · have apart : (other == key) = false := by simpa [same] using different
      rw [List.lookup_cons, apart, List.filter_cons_of_neg (by simpa using same)]
      exact ih
    · rw [List.filter_cons_of_pos (by simpa using same), List.lookup_cons, List.lookup_cons, ih]

theorem found?_erase_other (tree : Tree) {place other : Place} (different : other ≠ place) :
    (tree.erase place).found? other = tree.found? other := by
  unfold found? erase
  rw [lookup_erase_other different]

theorem found?_put_other (tree : Tree) {place other : Place} (entry : Entry)
    (different : other ≠ place) : (tree.put place entry).found? other = tree.found? other := by
  rw [← found?_erase_other tree different]
  have apart : (other == place) = false := by simpa using different
  unfold found? put
  simp [List.lookup_cons, apart]

theorem found?_put_same (tree : Tree) {place : Place} (entry : Entry) (below : place ≠ []) :
    (tree.put place entry).found? place = some entry := by
  simp [found?, put, below]

/-- The most bytes in a name. -/
def nameLimit : Nat := 255

/-- Fewer bytes than this may be in a path. -/
def pathLimit : Nat := 4096

/-- Goes from a directory to a name in it, whether or not there is anything. -/
def step (tree : Tree) (place : Place) (name : String) : Except Errno Place :=
  match tree.found? place with
  | some .directory =>
    if name = Path.parentName then .ok place.dropLast
    else if nameLimit < name.utf8ByteSize then .error .nameTooLong
    else .ok (place ++ [name])
  | some (.file _) => .error .notDirectory
  | none => .error .missing

def walk (tree : Tree) (place : Place) : List String → Except Errno Place
  | [] => .ok place
  | name :: rest =>
    match tree.step place name with
    | .ok next => tree.walk next rest
    | .error errno => .error errno

/-- The place that a path leads to; only its last name may lead to nothing. -/
def locate (tree : Tree) (here : Place) (path : Path) : Except Errno Place :=
  if pathLimit ≤ path.toString.utf8ByteSize then .error .nameTooLong
  else tree.walk (if path.isAbsolute then [] else here) path.names

/-- What a path leads to. -/
def status (tree : Tree) (here : Place) (path : Path) : Except Errno Entry :=
  match tree.locate here path with
  | .error errno => .error errno
  | .ok place =>
    match tree.found? place with
    | some entry => .ok entry
    | none => .error .missing

/-- Whether a path ends in a name that something can be made or put under. -/
def endsInName (path : Path) : Bool :=
  path.name ≠ "" && path.name ≠ Path.parentName

/-- The place where a path lets something be made, if nothing is there yet. -/
def vacancy (tree : Tree) (here : Place) (path : Path) : Except Errno Place :=
  match tree.locate here path with
  | .error errno => .error errno
  | .ok place =>
    if endsInName path && (tree.found? place).isNone then .ok place else .error .exists

/-- Makes something where nothing is. -/
def create (tree : Tree) (here : Place) (path : Path) (entry : Entry) : Except Errno Tree :=
  (tree.vacancy here path).map fun place => tree.put place entry

/-- Moves a file from a place to where a path leads, over a file that may be there. -/
def rename (tree : Tree) (here : Place) (source : Place) (content : ByteArray) (path : Path) :
    Except Errno Tree :=
  match tree.locate here path with
  | .error errno => .error errno
  | .ok place =>
    if !endsInName path then .error .busy
    else
      match tree.found? place with
      | some .directory => .error .isDirectory
      | _ => .ok ((tree.erase source).put place (.file content))

/-- What a later tree holds that this one does not, the oldest change first. -/
def changes (tree later : Tree) : List (Place × Entry) :=
  later.entries.reverse.filter fun (place, entry) => tree.found? place ≠ some entry

end Tree

end RailSpec.Disk
