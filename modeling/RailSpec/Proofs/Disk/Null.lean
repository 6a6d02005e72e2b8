import RailSpec.Proofs.Disk.File

/-!
Null characters. A file is not read for one only if its path has one, and a write from the root
fails for one only if its path has one, as long as there is none in the marks of temporary names.
-/

namespace RailSpec.Disk

variable {disk made after : Disk} {path : Path} {content : ByteArray} {overwrite : Bool}

/-- Marks as systems make them. -/
def MarksClean (disk : Disk) : Prop :=
  ∀ mark ∈ disk.marks, '\x00' ∉ mark.toList

theorem Path.hasNull_eq_false_iff :
    path.hasNull = false ↔ ∀ name ∈ path.names, '\x00' ∉ name.toList := by
  simp [Path.hasNull, List.any_eq_false]

theorem Path.hasNull_of_parent (null : path.parent.hasNull = true) : path.hasNull = true := by
  obtain ⟨name, member, holds⟩ := List.any_eq_true.mp null
  exact List.any_eq_true.mpr ⟨name, List.dropLast_subset _ member, holds⟩

theorem Path.mem_follow {place : Place} {names : List String} {name : String}
    (member : name ∈ follow place names) : name ∈ place ∨ name ∈ names := by
  induction names generalizing place with
  | nil => exact .inl member
  | cons first rest ih =>
    rw [follow] at member
    split at member
    · exact (ih member).imp (List.dropLast_subset _ ·) (List.mem_cons_of_mem first)
    · rcases ih member with early | late
      · rcases List.mem_append.mp early with here | same
        · exact .inl here
        · exact .inr (List.mem_singleton.mp same ▸ List.mem_cons_self ..)
      · exact .inr (List.mem_cons_of_mem first late)

theorem isKind_nullByte {kind : Entry → Bool} : disk.isKind path kind ≠ .error .nullByte := by
  unfold isKind
  split
  · exact nofun
  · split <;> exact nofun

theorem present_nullByte : disk.present path ≠ .error .nullByte := by
  unfold present
  split
  · exact nofun
  · split <;> exact nofun

theorem readText_nullByte (failed : disk.readText path = .error (.file .nullByte)) :
    path.hasNull = true := by
  unfold readText readBytes at failed
  split at failed
  · rename_i fault found
    split at found
    · assumption
    · cases failed
      split at found <;> cases found
  · cases failed
  · split at failed <;> cases failed

theorem fillAndMove_nullByte {temporary : Path} :
    (disk.fillAndMove temporary path content).2 ≠ .error .nullByte := by
  unfold fillAndMove
  dsimp only
  split
  · exact nofun
  · split <;> exact nofun

theorem makeDirectory_nullByte (failed : disk.makeDirectory path = .error .nullByte) :
    path.hasNull = true := by
  unfold makeDirectory at failed
  split at failed
  · assumption
  · split at failed
    · cases failed
    · split at failed <;> cases failed

theorem settled_nullByte {fault : Fault} (failed : (disk.settled path fault).2 = some .nullByte) :
    fault = .nullByte := by
  unfold settled at failed
  split at failed
  · rfl
  · rename_i trouble found
    cases failed
    exact absurd found isKind_nullByte
  · cases failed
  · exact Option.some.inj failed

theorem makeDirectories_nullByte (failed : (disk.makeDirectories path).2 = some .nullByte) :
    path.hasNull = true := by
  -- on the parents, whose fault is the one of the path
  fun_induction makeDirectories disk path with
  | case1 path made created => cases failed
  | case2 path fault refused =>
    rw [settled_nullByte failed] at refused
    exact makeDirectory_nullByte refused
  | case3 path fault refused =>
    cases failed
    exact makeDirectory_nullByte refused
  | case4 path fault refused missing some made trouble above ih =>
    rw [above] at ih
    exact Path.hasNull_of_parent (ih failed)
  | case5 => cases failed
  | case6 path fault refused missing some made above fault' refused' =>
    cases failed
    exact makeDirectory_nullByte refused'
  | case7 path fault refused missing some made above fault' refused' =>
    rw [settled_nullByte failed] at refused'
    exact makeDirectory_nullByte refused'

theorem temporary_clean {mark : String} (absolute : path.isAbsolute = true)
    (clean : path.hasNull = false) (fresh : '\x00' ∉ mark.toList) :
    (disk.temporary path mark).hasNull = false := by
  have names := Path.hasNull_eq_false_iff.mp clean
  refine Path.hasNull_eq_false_iff.mpr fun name member => ?_
  rcases List.mem_append.mp member with above | last
  · have parent : path.parent.isAbsolute = true := absolute
    rw [Path.absolute, Path.resolve, if_pos parent] at above
    rcases Path.mem_follow above with none | within
    · cases none
    · exact names name (List.dropLast_subset _ within)
  · have own : '\x00' ∉ path.name.toList := by
      unfold Path.name
      cases found : path.names.getLast? with
      | none => exact List.not_mem_nil
      | some name => exact names name (List.mem_of_getLast? found)
    rw [List.mem_singleton.mp last]
    simp [own, fresh]

theorem createTemporary_nullByte {marks : List String}
    (failed : disk.createTemporary path marks = .error .nullByte) :
    ∃ mark ∈ marks, (disk.temporary path mark).hasNull = true := by
  induction marks with
  | nil => cases failed
  | cons mark rest ih =>
    have later (failed : disk.createTemporary path rest = .error .nullByte) :
        ∃ mark' ∈ mark :: rest, (disk.temporary path mark').hasNull = true := by
      obtain ⟨other, member, null⟩ := ih failed
      exact ⟨other, List.mem_cons_of_mem mark member, null⟩
    rw [createTemporary] at failed
    split at failed
    · exact ⟨mark, List.mem_cons_self .., by assumption⟩
    · split at failed
      · exact later failed
      · exact later failed
      · cases failed
      · cases failed
      · cases failed

/-- A write from the root fails for a null character only if its path has one. -/
theorem write_nullByte (marks : disk.MarksClean) (absolute : path.isAbsolute = true)
    (failed : disk.write path content overwrite = (after, .error .nullByte)) :
    path.hasNull = true := by
  have paved := makeDirectories_paved disk path.parent
  unfold write at failed
  split at failed
  · rename_i made fault above
    cases failed
    exact Path.hasNull_of_parent (makeDirectories_nullByte (congrArg Prod.snd above))
  · rename_i made above
    rw [above] at paved
    split at failed
    · rename_i fault found
      cases failed
      exact absurd found present_nullByte
    · split at failed
      · cases failed
      · split at failed
        · rename_i fault named
          cases failed
          obtain ⟨mark, member, null⟩ := createTemporary_nullByte named
          refine eq_true_of_ne_false fun clean => ?_
          rw [temporary_clean absolute clean (marks mark (paved.marks ▸ member))] at null
          cases null
        · exact absurd (congrArg Prod.snd failed) fillAndMove_nullByte

end RailSpec.Disk
