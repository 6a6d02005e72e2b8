import RailSpec.Disk.Tree
import RailSpec.Text.Utf8

/-!
Files of a disk, read and written as a whole. A file is written under a temporary name beside its
target and takes its target's place in one step, so that a refused write leaves every file as it
was.
-/

namespace RailSpec.Disk

/-- The steps that a system may refuse for reasons of its own. -/
inductive Action where
  | readFile
  | makeDirectory
  | createFile
  | writeFile
  | renameFile
  deriving DecidableEq, Repr

end RailSpec.Disk

namespace RailSpec

open Disk (Tree Place Path Entry Errno Fault Action)

/-- A file tree as one program sees it: where it stands, which marks make temporary names unlike
others, and what the system refuses it. -/
structure Disk where
  tree : Tree
  here : Place := []
  marks : List String := []
  refuses : Action → String → Option Errno := fun _ _ => none

namespace Disk

/-- Whether there is something at the end of a path. A path that cannot be there leads to nothing,
but one with too long a name is a fault. -/
def present (disk : Disk) (path : Path) : Except Fault Bool :=
  if path.hasNull then .ok false
  else
    match disk.tree.status disk.here path with
    | .ok _ => .ok true
    | .error .missing | .error .notDirectory => .ok false
    | .error errno => .error (.step errno path.toString)

/-- Whether there is something of a kind at the end of a path. -/
def isKind (disk : Disk) (path : Path) (kind : Entry → Bool) : Except Fault Bool :=
  if path.hasNull then .ok false
  else
    match disk.tree.status disk.here path with
    | .ok entry => .ok (kind entry)
    | .error .missing | .error .notDirectory => .ok false
    | .error errno => .error (.step errno path.toString)

def Entry.isFile : Entry → Bool
  | .file _ => true
  | .directory => false

def Entry.isDirectory : Entry → Bool
  | .directory => true
  | .file _ => false

def isFile (disk : Disk) (path : Path) : Except Fault Bool :=
  disk.isKind path Entry.isFile

def isDirectory (disk : Disk) (path : Path) : Except Fault Bool :=
  disk.isKind path Entry.isDirectory

/-- The place that a path names; a null character keeps it from being looked up. -/
def resolve (disk : Disk) (path : Path) : Except Fault Place :=
  if path.hasNull then .error .nullByte else .ok (path.resolve disk.here)

/-- The bytes of a file. -/
def readBytes (disk : Disk) (path : Path) : Except Fault ByteArray :=
  if path.hasNull then .error .nullByte
  else
    match disk.tree.status disk.here path with
    | .ok (.file content) => .ok content
    | .ok .directory => .error (.step .isDirectory path.toString)
    | .error errno => .error (.step errno path.toString)

/-- Why the text of a file cannot be had. -/
inductive ReadFault where
  | file (fault : Fault)
  | encoding (fault : Text.Utf8.Fault)
  deriving DecidableEq, Repr

def ReadFault.message : ReadFault → String
  | .file fault => fault.message
  | .encoding fault => fault.message

/-- The text of a file that the system lets be read, with every line ending read as a line feed. -/
def readText (disk : Disk) (path : Path) : Except ReadFault String :=
  match disk.readBytes path, disk.refuses .readFile path.toString with
  | .error fault, _ => .error (.file fault)
  | .ok _, some errno => .error (.file (.step errno path.toString))
  | .ok bytes, none =>
    match Text.Utf8.decode bytes with
    | .error fault => .error (.encoding fault)
    | .ok text => .ok (String.ofList (Text.unifyLineEnds text.toList))

/-- Makes a single directory. -/
def makeDirectory (disk : Disk) (path : Path) : Except Fault Disk :=
  if path.hasNull then .error .nullByte
  else
    match disk.refuses .makeDirectory path.toString with
    | some errno => .error (.step errno path.toString)
    | none =>
      match disk.tree.create disk.here path .directory with
      | .ok tree => .ok { disk with tree }
      | .error errno => .error (.step errno path.toString)

/-- A fault in making a directory does not matter where there is a directory. -/
def settled (disk : Disk) (path : Path) (fault : Fault) : Disk × Option Fault :=
  match fault, disk.isDirectory path with
  | .nullByte, _ => (disk, some .nullByte)
  | _, .error trouble => (disk, some trouble)
  | _, .ok true => (disk, none)
  | fault, .ok false => (disk, some fault)

def Fault.isMissing : Fault → Bool
  | .step .missing _ => true
  | _ => false

/-- Makes a directory if it is not there, once more after its parents are made if they were
missing. -/
def makeDirectories (disk : Disk) (path : Path) : Disk × Option Fault :=
  match disk.makeDirectory path with
  | .ok made => (made, none)
  | .error fault =>
    if !fault.isMissing then disk.settled path fault
    else if path.names = [] then (disk, some fault)
    else
      match disk.makeDirectories path.parent with
      | (disk, some fault) => (disk, some fault)
      | (disk, none) =>
        match disk.makeDirectory path with
        | .ok made => (made, none)
        | .error fault =>
          if fault.isMissing then (disk, some fault) else disk.settled path fault
termination_by path.names.length
decreasing_by
  rename_i some
  have : path.names.length ≠ 0 := by simpa using some
  simp only [Path.parent, List.length_dropLast]
  omega

/-- The path of the temporary file for a target. -/
def temporary (disk : Disk) (path : Path) (mark : String) : Path :=
  let directory := path.parent.absolute disk.here
  { directory with names := directory.names ++ ["." ++ path.name ++ "." ++ mark ++ ".tmp"] }

/-- Makes an empty file under the first temporary name that is not taken. -/
def createTemporary (disk : Disk) (path : Path) : List String → Except Fault (Disk × Path)
  | [] => .error .noTemporaryName
  | mark :: marks =>
    let temporary := disk.temporary path mark
    if temporary.hasNull then .error .nullByte
    else
      match disk.refuses .createFile temporary.toString,
          disk.tree.create disk.here temporary (.file ByteArray.empty) with
      | some .exists, _ | none, .error .exists => disk.createTemporary path marks
      | some errno, _ | none, .error errno => .error (.step errno temporary.toString)
      | none, .ok tree => .ok ({ disk with tree }, temporary)

/-- Fills a temporary file and gives it its target's place, or removes it again. -/
def fillAndMove (disk : Disk) (temporary path : Path) (content : ByteArray) :
    Disk × Except Fault Nat :=
  let source := temporary.resolve disk.here
  let removed := { disk with tree := disk.tree.erase source }
  match disk.refuses .writeFile temporary.toString with
  | some errno => (removed, .error (.filling errno))
  | none =>
    match disk.refuses .renameFile path.toString,
        disk.tree.rename disk.here source content path with
    | some errno, _ | none, .error errno =>
      (removed, .error (.renaming errno temporary.toString path.toString))
    | none, .ok tree => ({ disk with tree }, .ok content.size)

/-- Writes a file with its parents, and says how many bytes it has. Something that is there already
is replaced only on demand. -/
def write (disk : Disk) (path : Path) (content : ByteArray) (overwrite : Bool) :
    Disk × Except Fault Nat :=
  match disk.makeDirectories path.parent with
  | (disk, some fault) => (disk, .error fault)
  | (disk, none) =>
    match disk.present path with
    | .error fault => (disk, .error fault)
    | .ok present =>
      if present && !overwrite then (disk, .error (.present path.toString))
      else
        match disk.createTemporary path disk.marks with
        | .error fault => (disk, .error fault)
        | .ok (disk, temporary) => disk.fillAndMove temporary path content

/-- Writes a text as a file. -/
def writeText (disk : Disk) (path : Path) (text : String) (overwrite : Bool) :
    Disk × Except Fault Nat :=
  disk.write path (Text.Utf8.encode text) overwrite

end Disk

end RailSpec
