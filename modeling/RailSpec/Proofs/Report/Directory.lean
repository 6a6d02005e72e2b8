import RailSpec.Proofs.Disk.Wider
import RailSpec.Proofs.Report.Inside
import RailSpec.Report.Files

/-!
Where the documents of a schema file go, and how the file is named in a report. Below the project's
root both repeat the directories that lead from the root to the file, unless the first of them begins
with two points; outside the root both keep nothing of where the file is.
-/

namespace RailSpec.Disk.Path

variable {start target rest : Place} {first : String}

theorem between_append (start rest : Place) : between start (start ++ rest) = rest := by
  induction start with
  | nil => cases rest <;> rfl
  | cons name start ih => rw [List.cons_append, between, if_pos rfl, ih]

/-- A way to a place below its start goes down by the names that lead there. -/
theorem wayText_append (start rest : Place) :
    wayText start (start ++ rest) = toString ⟨"", rest⟩ := by
  rw [wayText, between_append]

/-- The first name decides whether a way leads out. -/
theorem leadsOut_joined (first : String) (rest : List String) :
    leadsOut (Text.joined "/" (first :: rest)) = leadsOut first := by
  cases rest with
  | nil => rfl
  | cons next others =>
    have text : (Text.joined "/" (first :: next :: others)).toList =
        first.toList ++ '/' :: (Text.joined "/" (next :: others)).toList := by
      rw [Text.joined, String.toList_append, String.toList_append, slash, List.append_assoc]
      · rfl
      · exact fun none => List.cons_ne_nil _ _ none
    have points : "..".toList = ['.', '.'] := rfl
    rw [leadsOut, leadsOut, text, points]
    -- two points take two characters, and the slash behind a shorter name is no point
    cases first.toList with
    | nil => rfl
    | cons c more =>
      cases more with
      | nil => simp [List.isPrefixOf]
      | cons d more => simp [List.isPrefixOf]

/-- A way leads out of its start unless it goes down from there. -/
theorem leadsOut_of_outside (outside : ¬ start <+: target) :
    leadsOut (wayText start target) = true := by
  refine eq_true_of_ne_false fun inside => ?_
  obtain ⟨rest, down, _⟩ := wayText_down inside
  exact outside ⟨rest, down.symm⟩

end RailSpec.Disk.Path

namespace RailSpec.Destination

open Disk (Path Place)

variable {destination : Destination} {directory below other : Place} {name otherName : String}

/-- What is kept of the directories that lead from the root down to a schema file. A first name that
begins with two points is taken for a step out of the root, and nothing is kept. -/
def kept (below : List String) : List String :=
  if Path.leadsOut (below.headD "") then [] else below

theorem kept_eq_self_iff : kept below = below ↔ Path.leadsOut (below.headD "") = false := by
  cases below with
  | nil => exact iff_of_true rfl rfl
  | cons first rest =>
    unfold kept
    cases Path.leadsOut ((first :: rest).headD "") <;> simp

/-- The documents of a file below the root go where the kept names lead from the output. -/
theorem directory_root_append (proper : Path.IsPlace (destination.root ++ below ++ [name])) :
    destination.directory (destination.root ++ below ++ [name]) =
      Path.ofPlace (destination.output ++ kept below) := by
  unfold Destination.directory
  dsimp only
  rw [List.dropLast_concat, Path.wayText_append]
  cases below with
  | nil => simp [Path.toString, kept]
  | cons first rest =>
    have names : ∀ other ∈ first :: rest, Path.IsName other := fun other member =>
      proper.names other (List.mem_append_left _ (List.mem_append_right _ member))
    have read := Path.ofString_joined names
    -- the text of a way with names is read back, so it is no single point
    have named : Text.joined "/" (first :: rest) ≠ "." := by
      intro point
      have point' : Path.ofString "." = ⟨"", []⟩ := by decide +kernel
      rw [point, point'] at read
      cases read
    rw [Path.toString_relative, read, Path.leadsOut_joined, kept]
    cases led : Path.leadsOut first with
    | true => simp [led]
    | false => simp [led, named, Path.join, Path.isAbsolute, Path.ofPlace]

theorem directory_outside (outside : ¬ destination.root <+: directory) :
    destination.directory (directory ++ [name]) = Path.ofPlace destination.output := by
  unfold Destination.directory
  dsimp only
  rw [List.dropLast_concat, Path.leadsOut_of_outside outside, Bool.or_true, if_pos rfl]

theorem name_ofPlace (directory : Place) (name : String) :
    (Path.ofPlace (directory ++ [name])).name = name := by
  rw [Path.name, Path.ofPlace, List.getLast?_concat, Option.getD_some]

section Relative

variable (disk : Disk) (proper : Path.IsPlace (directory ++ [name]))
  (clean : (Path.ofPlace (directory ++ [name])).hasNull = false)
include proper clean

theorem relativePath_eq (root : Place) :
    Generator.relativePath disk (Path.ofPlace (directory ++ [name])) root =
      .ok (if Path.leadsOut (Path.wayText root (directory ++ [name])) then name
        else Path.wayText root (directory ++ [name])) := by
  have resolved : disk.resolve (Path.ofPlace (directory ++ [name])) = .ok (directory ++ [name]) := by
    rw [Disk.resolve, clean, Disk.Path.resolve_ofPlace proper.noParent]
    rfl
  rw [Generator.relativePath, resolved, name_ofPlace]
  rfl

/-- A file below the root is named by the kept names and its own. -/
theorem relativePath_root_append {root : Place} (down : directory = root ++ below) :
    Generator.relativePath disk (Path.ofPlace (directory ++ [name])) root =
      .ok (Text.joined "/" (kept below ++ [name])) := by
  rw [relativePath_eq disk proper clean, down, List.append_assoc, Path.wayText_append]
  congr 1
  cases below with
  | nil =>
    rw [List.nil_append, Path.toString_relative]
    exact ite_self _
  | cons first rest =>
    rw [List.cons_append, Path.toString_relative, Path.leadsOut_joined, kept]
    cases led : Path.leadsOut first with
    | true => simp [led, Text.joined]
    | false => simp [led]

theorem relativePath_self :
    Generator.relativePath disk (Path.ofPlace (directory ++ [name])) (directory ++ [name]) =
      .ok "." := by
  have way := Path.wayText_append (directory ++ [name]) []
  rw [List.append_nil] at way
  rw [relativePath_eq disk proper clean, way]
  rfl

theorem relativePath_outside {root : Place} (outside : ¬ root <+: directory)
    (apart : root ≠ directory ++ [name]) :
    Generator.relativePath disk (Path.ofPlace (directory ++ [name])) root = .ok name := by
  have beyond : ¬ root <+: directory ++ [name] := by
    intro within
    rcases List.prefix_concat_iff.mp within with same | inside
    · exact apart same
    · exact outside inside
  rw [relativePath_eq disk proper clean, Path.leadsOut_of_outside beyond]
  rfl

end Relative

/-- Below the root a schema file's documents go to the directories of the file, moved to the output,
and its name in a report is those directories and the file's own name; two files share a directory
only if these are the same. This is so unless the first directory begins with two points, when
nothing of them is kept. Outside the root it is the output itself and the file's own name; a file
that is the root is named by a point. -/
theorem directory_tracks (destination : Destination) (disk : Disk)
    (proper : Path.IsPlace (directory ++ [name]))
    (clean : (Path.ofPlace (directory ++ [name])).hasNull = false) :
    (∀ below, directory = destination.root ++ below →
      destination.directory (directory ++ [name]) =
          Path.ofPlace (destination.output ++ kept below) ∧
        Generator.relativePath disk (Path.ofPlace (directory ++ [name])) destination.root =
          .ok (Text.joined "/" (kept below ++ [name])) ∧
        (kept below = below ↔ Path.leadsOut (below.headD "") = false) ∧
        ∀ other otherName, Path.IsPlace (destination.root ++ other ++ [otherName]) →
          (destination.directory (destination.root ++ other ++ [otherName]) =
              destination.directory (directory ++ [name]) ↔ kept other = kept below)) ∧
    (¬ destination.root <+: directory →
      destination.directory (directory ++ [name]) = Path.ofPlace destination.output ∧
        Generator.relativePath disk (Path.ofPlace (directory ++ [name])) destination.root =
          .ok (if destination.root = directory ++ [name] then "." else name)) := by
  constructor
  · rintro below rfl
    refine ⟨directory_root_append proper, relativePath_root_append disk proper clean rfl,
      kept_eq_self_iff, ?_⟩
    intro other otherName proper'
    rw [directory_root_append proper, directory_root_append proper']
    constructor
    · intro same
      exact List.append_cancel_left (congrArg Path.names same)
    · intro same
      rw [same]
  · intro outside
    refine ⟨directory_outside outside, ?_⟩
    by_cases same : destination.root = directory ++ [name]
    · rw [if_pos same, same]
      exact relativePath_self disk proper clean
    · rw [if_neg same]
      exact relativePath_outside disk proper clean outside same

/-! A project with schema files in its engines, and one with a directory that begins with two
points. -/

def appDestination : Destination := { output := ["o"], root := ["w", "app"] }

theorem directory_tracks_engines :
    appDestination.directory ["w", "app", "engines", "db", "schema.rb"] =
        Path.ofPlace ["o", "engines", "db"] ∧
      Generator.relativePath { tree := {} }
          (Path.ofPlace ["w", "app", "engines", "db", "schema.rb"]) ["w", "app"] =
        .ok "engines/db/schema.rb" ∧
      appDestination.directory ["w", "app", "db", "schema.rb"] ≠
        appDestination.directory ["w", "app", "engines", "db", "schema.rb"] ∧
      appDestination.directory ["w", "application", "schema.rb"] = Path.ofPlace ["o"] ∧
      Generator.relativePath { tree := {} } (Path.ofPlace ["w", "application", "schema.rb"])
        ["w", "app"] = .ok "schema.rb" := by
  have engines : Path.IsPlace (["w", "app", "engines", "db"] ++ ["schema.rb"]) :=
    .of_text "w/app/engines/db/schema.rb" (by decide +kernel)
  have shared : Path.IsPlace (appDestination.root ++ ["db"] ++ ["schema.rb"]) :=
    .of_text "w/app/db/schema.rb" (by decide +kernel)
  have sibling : Path.IsPlace (["w", "application"] ++ ["schema.rb"]) :=
    .of_text "w/application/schema.rb" (by decide +kernel)
  obtain ⟨inside, _⟩ := directory_tracks appDestination { tree := {} } engines (by decide +kernel)
  obtain ⟨goes, named, _, alone⟩ := inside ["engines", "db"] rfl
  obtain ⟨_, outside⟩ := directory_tracks appDestination { tree := {} } sibling (by decide +kernel)
  obtain ⟨goes', named'⟩ := outside (by decide)
  refine ⟨goes, named, ?_, goes', named'⟩
  intro same
  exact absurd ((alone ["db"] "schema.rb" shared).mp same) (by decide)

/-- A directory that begins with two points is left out, and its documents go where those of the
root's own files go. -/
theorem directory_pointed :
    appDestination.directory ["w", "app", "..db", "schema.rb"] ≠ Path.ofPlace ["o", "..db"] ∧
      appDestination.directory ["w", "app", "..db", "schema.rb"] =
        appDestination.directory ["w", "app", "schema.rb"] ∧
      Generator.relativePath { tree := {} }
          (Path.ofPlace ["w", "app", "..db", "schema.rb"]) ["w", "app"] ≠
        .ok "..db/schema.rb" := by
  have proper : Path.IsPlace (["w", "app"] ++ ["..db"] ++ ["schema.rb"]) :=
    .of_text "w/app/..db/schema.rb" (by decide +kernel)
  have own : Path.IsPlace (["w", "app"] ++ [] ++ ["schema.rb"]) :=
    .of_text "w/app/schema.rb" (by decide +kernel)
  have goes : appDestination.directory ["w", "app", "..db", "schema.rb"] = Path.ofPlace ["o"] :=
    @directory_root_append appDestination ["..db"] "schema.rb" proper
  have goes' : appDestination.directory ["w", "app", "schema.rb"] = Path.ofPlace ["o"] :=
    @directory_root_append appDestination [] "schema.rb" own
  have named : Generator.relativePath { tree := {} }
      (Path.ofPlace ["w", "app", "..db", "schema.rb"]) ["w", "app"] = .ok "schema.rb" :=
    @relativePath_root_append ["w", "app", "..db"] ["..db"] "schema.rb" { tree := {} } proper
      (by decide +kernel) ["w", "app"] rfl
  rw [goes, goes', named]
  exact ⟨by decide, rfl, by decide⟩

end RailSpec.Destination
