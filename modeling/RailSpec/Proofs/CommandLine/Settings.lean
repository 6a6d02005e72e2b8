import RailSpec.CommandLine.Run
import RailSpec.Proofs.Disk.Null
import RailSpec.Proofs.Disk.Place
import RailSpec.Proofs.Settings.File

/-!
Runs without settings. Settings can be missing for many reasons; a run tells each of them and ends
with an error in its input, but for a system that stands in the way of the settings file.
-/

namespace RailSpec.CommandLine

open Disk (Path Errno)
open Settings (Trouble Unloadable)

variable {disk : Disk} {arguments : Arguments} {trouble : Trouble} {found : Bool}

/-- The settings file of a run; an empty name stands for none. -/
def Arguments.settingsName? (arguments : Arguments) : Option String :=
  arguments.config.filter (· ≠ "")

/-- The ways in which a run can be without settings: those of the command line alone or together
with those of a file are faulty, or there is nothing to be had from the file. -/
inductive Unobtainable (disk : Disk) (arguments : Arguments) : Trouble → Prop where
  | faulty {faults : List Record.Fault} (unnamed : arguments.settingsName? = none)
    (refused : Settings.ofMapping [] arguments.overrides = .error faults) :
    Unobtainable disk arguments (.invalid faults)
  | unloadable {name : String} {trouble : Trouble} (named : arguments.settingsName? = some name)
    (failed : Unloadable disk (Path.ofString name) trouble) : Unobtainable disk arguments trouble
  | overridden {name : String} {mapping : Settings.Mapping} {faults : List Record.Fault}
    (named : arguments.settingsName? = some name)
    (loaded : Settings.load disk (Path.ofString name) = .ok mapping)
    (refused : Settings.ofMapping mapping arguments.overrides = .error faults) :
    Unobtainable disk arguments (.invalid faults)

theorem accept_error_iff {mapping : Settings.Mapping} {overrides : Fields} :
    Settings.accept mapping overrides = .error trouble ↔
      ∃ faults, Settings.ofMapping mapping overrides = .error faults ∧ trouble = .invalid faults := by
  unfold Settings.accept
  cases Settings.ofMapping mapping overrides with
  | error faults =>
    constructor
    · intro failed
      cases failed
      exact ⟨faults, rfl, rfl⟩
    · rintro ⟨_, same, rfl⟩
      cases same
      rfl
  | ok settings => exact ⟨nofun, fun ⟨_, same, _⟩ => nomatch same⟩

theorem settingsOf_unnamed (unnamed : arguments.settingsName? = none) :
    settingsOf disk arguments = Settings.accept [] arguments.overrides := by
  rw [Arguments.settingsName?] at unnamed
  rw [settingsOf, unnamed]

theorem settingsOf_named {name : String} (named : arguments.settingsName? = some name) :
    settingsOf disk arguments = (Settings.load disk (Path.ofString name)).bind fun mapping =>
      Settings.accept mapping arguments.overrides := by
  rw [Arguments.settingsName?] at named
  rw [settingsOf, named]
  dsimp only
  cases Settings.load disk (Path.ofString name) <;> rfl

/-- These are all the ways. -/
theorem settingsOf_error_iff :
    settingsOf disk arguments = .error trouble ↔ Unobtainable disk arguments trouble := by
  constructor
  · intro failed
    cases named : arguments.settingsName? with
    | none =>
      rw [settingsOf_unnamed named] at failed
      obtain ⟨faults, refused, rfl⟩ := accept_error_iff.mp failed
      exact .faulty named refused
    | some name =>
      rw [settingsOf_named named] at failed
      cases loaded : Settings.load disk (Path.ofString name) with
      | error trouble =>
        rw [loaded] at failed
        cases failed
        exact .unloadable named (Settings.load_error_iff.mp loaded)
      | ok mapping =>
        rw [loaded] at failed
        obtain ⟨faults, refused, rfl⟩ := accept_error_iff.mp failed
        exact .overridden named loaded refused
  · intro unobtainable
    cases unobtainable with
    | faulty unnamed refused =>
      rw [settingsOf_unnamed unnamed]
      exact accept_error_iff.mpr ⟨_, refused, rfl⟩
    | unloadable named failed =>
      rw [settingsOf_named named, Settings.load_error_iff.mpr failed]
      rfl
    | overridden named loaded refused =>
      rw [settingsOf_named named, loaded]
      exact accept_error_iff.mpr ⟨_, refused, rfl⟩

theorem escapeOf_step {errno : Errno} (lasting : errno ≠ .missing) (path : String) :
    escapeOf (.file (.file (.step errno path))) = some (.file (.step errno path)) := by
  unfold escapeOf
  dsimp only
  split
  · rename_i same
    cases same
  · rename_i same
    cases same
    exact absurd rfl lasting
  · rfl

/-- The system stands in the way of the settings file, and not by saying that it is missing. -/
def Stops (disk : Disk) (arguments : Arguments) (path : Path) (errno : Errno) : Prop :=
  (∃ name, arguments.settingsName? = some name ∧ path = Path.ofString name) ∧
    disk.Blocks path errno ∧ errno ≠ .missing

/-- Only a system that stands in the way ends a run in another way than by a message. -/
theorem Unobtainable.escapeOf_iff (unobtainable : Unobtainable disk arguments trouble)
    {escape : Escape} : escapeOf trouble = some escape ↔
      ∃ path errno, Stops disk arguments path errno ∧
        escape = .file (.step errno path.toString) := by
  constructor
  · intro escapes
    cases unobtainable with
    | faulty => cases escapes
    | overridden => cases escapes
    | @unloadable name _ named failed =>
      cases failed with
      | @blocked errno stopped =>
        have lasting : errno ≠ .missing := by
          rintro rfl
          cases escapes
        rw [escapeOf_step lasting] at escapes
        cases escapes
        exact ⟨_, errno, ⟨⟨name, named, rfl⟩, stopped, lasting⟩, rfl⟩
      | _ => cases escapes
  · rintro ⟨path, errno, ⟨⟨name, named, rfl⟩, stopped, lasting⟩, rfl⟩
    have known : Unobtainable disk arguments _ := .unloadable named (.blocked stopped)
    have same := (settingsOf_error_iff.mpr unobtainable).symm.trans (settingsOf_error_iff.mpr known)
    cases same
    exact escapeOf_step lasting _

/-- What the look for a run's root finds: whether it is a directory. -/
inductive Rooted (disk : Disk) (arguments : Arguments) : Bool → Prop where
  | looked {text : String} {place : Disk.Place} {found : Bool}
    (given : arguments.projectRoot = .value text)
    (resolved : disk.resolve (Path.ofString text) = .ok place)
    (directory : disk.isDirectory (Path.ofPlace place) = .ok found) : Rooted disk arguments found

/-- A look at a disk finds one thing. -/
theorem Rooted.unique {another : Bool} (first : Rooted disk arguments found)
    (second : Rooted disk arguments another) : found = another := by
  obtain ⟨given, resolved, directory⟩ := first
  obtain ⟨given', resolved', directory'⟩ := second
  cases given.symm.trans given'
  cases resolved.symm.trans resolved'
  exact Except.ok.inj (directory.symm.trans directory')

theorem Rooted.run_none (rooted : Rooted disk arguments false) :
    ∃ log, ∀ reader, run reader disk arguments = (disk, .ok (inputError log)) := by
  cases rooted with
  | @looked text _ _ given resolved directory =>
    refine ⟨[line .error ("Project root not found: " ++ text)], fun reader => ?_⟩
    rw [run, given]
    dsimp only
    rw [runIn, resolved]
    dsimp only
    rw [directory]

theorem Rooted.run_trouble (rooted : Rooted disk arguments true)
    (failed : settingsOf disk arguments = .error trouble) (reader : Reader) :
    run reader disk arguments = (disk, match escapeOf trouble with
      | some escape => .error escape
      | none => .ok (inputError
          [line .error ("Invalid configuration: " ++ trouble.message)])) := by
  cases rooted with
  | looked given resolved directory =>
    rw [run, given]
    dsimp only
    rw [runIn, resolved]
    dsimp only
    rw [directory]
    dsimp only
    rw [failed]
    dsimp only
    cases escapeOf trouble <;> rfl

/-- Without a look at its root a run ends with what kept it from that. -/
theorem run_unrooted (unrooted : ∀ found, ¬ Rooted disk arguments found) :
    ∃ escape, ∀ reader, run reader disk arguments = (disk, .error escape) := by
  cases given : arguments.projectRoot with
  | nothing => exact ⟨.noPath, fun reader => by rw [run, given]⟩
  | value text =>
    cases resolved : disk.resolve (Path.ofString text) with
    | error fault =>
      refine ⟨.file fault, fun reader => ?_⟩
      rw [run, given]
      dsimp only
      rw [runIn, resolved]
    | ok place =>
      cases directory : disk.isDirectory (Path.ofPlace place) with
      | ok found => exact absurd (.looked given resolved directory) (unrooted found)
      | error fault =>
        refine ⟨.file fault, fun reader => ?_⟩
        rw [run, given]
        dsimp only
        rw [runIn, resolved]
        dsimp only
        rw [directory]

def bareDisk : Disk := { tree := ⟨[]⟩ }

theorem bare_rooted (given : arguments.projectRoot = .value ".") :
    Rooted bareDisk arguments true := by
  have here : Path.ofString "." = ⟨"", []⟩ := by decide +kernel
  have resolved : bareDisk.resolve (Path.ofString ".") = .ok [] := by
    rw [here]
    rfl
  exact .looked given resolved rfl

/-- Nothing is to be seen under a name with too many bytes. -/
theorem tooLong_blocks {name : String} (clean : '\x00' ∉ name.toList)
    (long : Disk.Tree.nameLimit < name.utf8ByteSize)
    (short : name.utf8ByteSize < Disk.Tree.pathLimit) :
    bareDisk.Blocks ⟨"", [name]⟩ .nameTooLong := by
  have noNull : (⟨"", [name]⟩ : Path).hasNull = false :=
    Path.hasNull_eq_false_iff.mpr (List.forall_mem_singleton.mpr clean)
  have text : (⟨"", [name]⟩ : Path).toString = name := Path.toString_relative name []
  have proper : name ≠ Path.parentName := by
    rintro rfl
    exact absurd long (by decide)
  have step : bareDisk.tree.step [] name = .error .nameTooLong := by
    rw [Disk.Tree.step, bareDisk, Disk.Tree.found?, if_pos rfl]
    dsimp only
    rw [if_neg proper, if_pos long]
  have walked : bareDisk.tree.walk [] [name] = .error .nameTooLong := by
    rw [Disk.Tree.walk, step]
  have located : bareDisk.tree.locate bareDisk.here ⟨"", [name]⟩ = .error .nameTooLong := by
    rw [Disk.Tree.locate, text, if_neg (Nat.not_le_of_lt short)]
    exact walked
  have status : bareDisk.tree.status bareDisk.here ⟨"", [name]⟩ = .error .nameTooLong := by
    rw [Disk.Tree.status, located]
  exact .look noNull status (by decide) (by decide)

/-- A settings file under such a name ends a run with a fault instead of status 4. -/
theorem run_tooLong {name : String} (isName : Path.IsName name) (clean : '\x00' ∉ name.toList)
    (long : Disk.Tree.nameLimit < name.utf8ByteSize)
    (short : name.utf8ByteSize < Disk.Tree.pathLimit) :
    Unobtainable bareDisk { config := some name } (.file (.file (.step .nameTooLong name))) ∧
    ∀ reader, run reader bareDisk { config := some name } =
      (bareDisk, .error (.file (.step .nameTooLong name))) := by
  have path : Path.ofString name = ⟨"", [name]⟩ :=
    Path.ofString_joined (List.forall_mem_singleton.mpr isName)
  have text : (⟨"", [name]⟩ : Path).toString = name := Path.toString_relative name []
  have filled : name ≠ "" := by
    rintro rfl
    exact absurd long (by decide)
  have named : Arguments.settingsName? { config := some name } = some name :=
    Option.filter_some_pos (decide_eq_true filled)
  have blocks := tooLong_blocks clean long short
  have unloadable : Unloadable bareDisk (Path.ofString name) _ := .blocked (path ▸ blocks)
  rw [path, text] at unloadable
  have unobtainable : Unobtainable bareDisk { config := some name } _ :=
    .unloadable named (path ▸ unloadable)
  refine ⟨unobtainable, fun reader => ?_⟩
  exact (bare_rooted rfl).run_trouble (settingsOf_error_iff.mpr unobtainable) reader

/-- The name of a settings file with a byte more than a name may have. -/
def longName : String :=
  String.ofList (List.replicate 256 'x')

end RailSpec.CommandLine
