import RailSpec.Proofs.Disk.Directories
import RailSpec.Proofs.Text.Utf8

/-!
What a write leaves of a disk. Directories stay, other files keep their content, and the target has
its new content if the write was not refused, or else the one it had.
-/

namespace RailSpec.Disk

variable {disk made after : Disk} {path other : Path} {content old : ByteArray} {overwrite : Bool}

/-- A disk on which everything that was there still is, and nothing new but directories. -/
structure Grows (disk after : Disk) : Prop where
  here : after.here = disk.here
  stays : ∀ {place : Place} {entry : Entry}, disk.tree.found? place = some entry →
    after.tree.found? place = some entry
  noFile : ∀ {place : Place} {content : ByteArray}, after.tree.found? place = some (.file content) →
    disk.tree.found? place = some (.file content)

theorem Grows.trans (first : disk.Grows made) (second : made.Grows after) : disk.Grows after :=
  ⟨second.here.trans first.here, fun there => second.stays (first.stays there),
    fun there => first.noFile (second.noFile there)⟩

theorem Paved.grows (paved : disk.Paved path after) : disk.Grows after :=
  ⟨paved.here, paved.stays, paved.noFile⟩

/-- Making directories takes nothing away, even if it is given up. -/
theorem makeDirectories_grows (disk : Disk) (path : Path) :
    disk.Grows (disk.makeDirectories path).1 :=
  (makeDirectories_paved disk path).grows

/-- A path with a null character has no parents that could be made. -/
theorem makeDirectories_null (null : path.hasNull = true) :
    disk.makeDirectories path = (disk, some .nullByte) := by
  have refused : disk.makeDirectory path = .error .nullByte := by
    rw [makeDirectory, if_pos null]
  rw [makeDirectories, refused]
  rfl

/-- A temporary file is made where nothing was. -/
theorem createTemporary_cases {temporary : Path} {marks : List String}
    (done : disk.createTemporary path marks = .ok (made, temporary)) :
    (∃ mark, temporary = disk.temporary path mark) ∧ temporary.hasNull = false ∧
      disk.tree.found? (temporary.resolve disk.here) = none ∧
      made = { disk with
        tree := disk.tree.put (temporary.resolve disk.here) (.file ByteArray.empty) } := by
  induction marks with
  | nil => cases done
  | cons mark rest ih =>
    rw [createTemporary] at done
    split at done
    · cases done
    · rename_i clean
      split at done
      · exact ih done
      · exact ih done
      · cases done
      · cases done
      · rename_i tree allowed created
        cases done
        obtain ⟨vacant, rfl⟩ := Tree.create_cases created
        exact ⟨⟨mark, rfl⟩, eq_false_of_ne_true clean, vacant, rfl⟩

/-- The name of a temporary file holds that of its target. -/
theorem hasNull_of_temporary {mark : String} (above : path.parent.hasNull = false)
    (clean : (disk.temporary path mark).hasNull = false) : path.hasNull = false := by
  simp only [Path.hasNull, temporary, List.any_append, List.any_cons, Bool.or_eq_false_iff,
    String.toList_append, List.contains_append] at clean
  obtain ⟨_, ⟨⟨⟨⟨_, last⟩, _⟩, _⟩, _⟩, _⟩ := clean
  rcases List.eq_nil_or_concat path.names with none | ⟨front, name, same⟩
  · rw [Path.hasNull, none]
    rfl
  · rw [List.concat_eq_append] at same
    rw [Path.hasNull, Path.parent, same, List.dropLast_concat] at above
    rw [Path.name, same, List.getLast?_concat, Option.getD_some] at last
    rw [Path.hasNull, same, List.any_append, above, List.any_cons, last]
    rfl

/-- What a write can come to: a refusal, which takes nothing away, or the new content at the place
of the target, where no directory was and, without permission to overwrite, nothing at all. -/
inductive Writes (disk : Disk) (path : Path) (content : ByteArray) (overwrite : Bool) :
    Disk × Except Fault Nat → Prop where
  | refused {after : Disk} (fault : Fault) (grows : disk.Grows after) :
    Writes disk path content overwrite (after, .error fault)
  | written {made after : Disk} (grows : disk.Grows made) (here : after.here = made.here)
    (clean : path.hasNull = false)
    (leads : made.tree.locate made.here path = .ok (path.resolve made.here))
    (noDirectory : made.tree.found? (path.resolve made.here) ≠ some .directory)
    (free : overwrite = false → made.tree.found? (path.resolve made.here) = none)
    (target : after.tree.found? (path.resolve made.here) = some (.file content))
    (others : ∀ place, place ≠ path.resolve made.here →
      after.tree.found? place = made.tree.found? place) :
    Writes disk path content overwrite (after, .ok content.size)

/-- Where nothing is present, a path leads to nothing. -/
theorem found?_of_absent (clean : path.hasNull = false) (absent : disk.present path = .ok false)
    (leads : disk.tree.locate disk.here path = .ok (path.resolve disk.here)) :
    disk.tree.found? (path.resolve disk.here) = none := by
  cases found : disk.tree.found? (path.resolve disk.here) with
  | none => rfl
  | some entry =>
    have here : disk.tree.status disk.here path = .ok entry := by
      rw [Tree.status, leads]
      simp only [found]
    rw [present, clean, here] at absent
    cases absent

section Moving

variable {base : Disk} {source : Place} {filled : Tree} (vacant : made.tree.found? source = none)
  (put : filled = made.tree.put source (.file ByteArray.empty))
include vacant put

theorem directoriesStay_put : Tree.DirectoriesStay filled made.tree := by
  intro place found
  by_cases same : place = source
  · subst same
    rw [put, Tree.found?_put_same _ _ (Tree.below_of_vacant vacant)] at found
    cases found
  · rwa [put, Tree.found?_put_other _ _ same] at found

theorem undone_grows (grows : base.Grows made) :
    base.Grows { made with tree := filled.erase source } := by
  have unchanged : (filled.erase source).found? = made.tree.found? := by
    rw [put, Tree.found?_erase_put vacant]
  refine grows.trans ⟨rfl, fun {place entry} there => ?_, fun {place content} there => ?_⟩
  · exact (congrFun unchanged place).trans there
  · exact (congrFun unchanged place).symm.trans there

theorem moved_writes (grows : base.Grows made) (clean : path.hasNull = false)
    (absent : overwrite = false → made.present path = .ok false) {tree : Tree}
    (moved : filled.rename made.here source content path = .ok tree) :
    Writes base path content overwrite ({ made with tree }, .ok content.size) := by
  obtain ⟨located, noDirectory, rfl⟩ := Tree.rename_cases moved
  -- the temporary file is no directory, so the path led to the same place without it
  have leads := Tree.locate_stays (directoriesStay_put vacant put) located
  have unchanged : (filled.erase source).found? = made.tree.found? := by
    rw [put, Tree.found?_erase_put vacant]
  have below : path.resolve made.here ≠ [] := by
    intro root
    rw [root] at noDirectory
    exact noDirectory rfl
  refine .written grows rfl clean leads ?_ ?_ ?_ ?_
  · intro directory
    have apart : path.resolve made.here ≠ source := by
      intro same
      rw [same, vacant] at directory
      cases directory
    rw [put, Tree.found?_put_other _ _ apart] at noDirectory
    exact noDirectory directory
  · intro guarded
    exact found?_of_absent clean (absent guarded) leads
  · exact Tree.found?_put_same _ _ below
  · intro place apart
    rw [Tree.found?_put_other _ _ apart, unchanged]

end Moving

/-- Every write is one of these. -/
theorem write_writes (disk : Disk) (path : Path) (content : ByteArray) (overwrite : Bool) :
    Writes disk path content overwrite (disk.write path content overwrite) := by
  have grows := makeDirectories_grows disk path.parent
  unfold write
  split
  · rename_i made fault above
    rw [above] at grows
    exact .refused fault grows
  · rename_i made above
    rw [above] at grows
    have parents : path.parent.hasNull = false := by
      refine eq_false_of_ne_true fun null => ?_
      cases above.symm.trans (makeDirectories_null null)
    split
    · exact .refused _ grows
    · rename_i present found
      split
      · exact .refused _ grows
      · rename_i allowed
        have absent (guarded : overwrite = false) : made.present path = .ok false := by
          rw [found]
          simp_all
        split
        · exact .refused _ grows
        · rename_i filled temporary named
          obtain ⟨⟨mark, same⟩, unnulled, vacant, rfl⟩ := createTemporary_cases named
          have clean : path.hasNull = false := hasNull_of_temporary parents (same ▸ unnulled)
          unfold fillAndMove
          dsimp only
          split
          · exact .refused _ (undone_grows vacant rfl grows)
          · split
            · exact .refused _ (undone_grows vacant rfl grows)
            · exact .refused _ (undone_grows vacant rfl grows)
            · rename_i moved
              exact moved_writes vacant rfl grows clean absent moved

section Written

variable {result : Except Fault Nat}

theorem Writes.here_eq (writes : Writes disk path content overwrite (after, result)) :
    after.here = disk.here := by
  cases writes with
  | refused fault grows => exact grows.here
  | written grows here => exact here.trans grows.here

/-- Directories stay, and so does every file but a target that may be overwritten. -/
theorem Writes.stays (writes : Writes disk path content overwrite (after, result)) {place : Place}
    {entry : Entry} (there : disk.tree.found? place = some entry)
    (safe : entry = .directory ∨ overwrite = false ∨ place ≠ path.resolve disk.here) :
    after.tree.found? place = some entry := by
  cases writes with
  | refused fault grows => exact grows.stays there
  | written grows here clean leads noDirectory free target others =>
    have kept := grows.stays there
    rw [← grows.here] at safe
    rw [others place ?_]
    · exact kept
    · -- the target: no directory was there, and nothing at all unless it may be overwritten
      rintro rfl
      rcases safe with rfl | guarded | apart
      · exact noDirectory kept
      · cases (free guarded).symm.trans kept
      · exact apart rfl

/-- A refused write leaves every file as it was, and no other. -/
theorem Writes.refused_iff {fault : Fault}
    (writes : Writes disk path content overwrite (after, .error fault)) {place : Place} :
    after.tree.found? place = some (.file old) ↔ disk.tree.found? place = some (.file old) := by
  cases writes with
  | refused fault grows => exact ⟨grows.noFile, grows.stays⟩

theorem Writes.directoriesStay (writes : Writes disk path content overwrite (after, result)) :
    Tree.DirectoriesStay disk.tree after.tree :=
  fun _ found => writes.stays found (.inl rfl)

theorem readBytes_iff : disk.readBytes path = .ok content ↔ path.hasNull = false ∧
    disk.tree.locate disk.here path = .ok (path.resolve disk.here) ∧
    disk.tree.found? (path.resolve disk.here) = some (.file content) := by
  unfold readBytes Tree.status
  constructor
  · intro read
    split at read
    · cases read
    · rename_i clean
      cases located : disk.tree.locate disk.here path with
      | error errno =>
        rw [located] at read
        cases read
      | ok place =>
        obtain rfl := Tree.locate_eq_resolve located
        refine ⟨eq_false_of_ne_true clean, rfl, ?_⟩
        rw [located] at read
        cases found : disk.tree.found? (path.resolve disk.here) with
        | none =>
          simp only [found] at read
          cases read
        | some entry =>
          simp only [found] at read
          cases entry with
          | directory => cases read
          | file held => rw [Except.ok.inj read]
  · rintro ⟨clean, located, found⟩
    rw [clean, located]
    simp only [found]
    rfl

/-- A file that was written is read as it was written. -/
theorem readBytes_written {bytes : Nat}
    (writes : Writes disk path content overwrite (after, .ok bytes)) :
    after.readBytes path = .ok content := by
  have directories := writes.directoriesStay
  cases writes with
  | @written made after grows here clean leads noDirectory free target others =>
    refine readBytes_iff.mpr ⟨clean, ?_, ?_⟩
    · rw [here]
      refine Tree.locate_stays (fun place found => ?_) leads
      rw [others place ?_]
      · exact found
      · rintro rfl
        exact noDirectory found
    · rw [here]
      exact target

/-- A file is read as before unless the write was free to replace it. -/
theorem readBytes_kept (writes : Writes disk path content overwrite (after, result))
    (read : disk.readBytes other = .ok old)
    (apart : overwrite = true → path.resolve disk.here ≠ other.resolve disk.here) :
    after.readBytes other = .ok old := by
  obtain ⟨clean, located, found⟩ := readBytes_iff.mp read
  refine readBytes_iff.mpr ⟨clean, ?_, ?_⟩
  · rw [writes.here_eq]
    exact Tree.locate_stays writes.directoriesStay located
  · rw [writes.here_eq]
    refine writes.stays found (.inr ?_)
    cases overwrite with
    | false => exact .inl rfl
    | true => exact .inr (Ne.symm (apart rfl))

/-- A file in UTF-8 that may be read is read as its text, if there are no line ends in it but line
feeds. -/
theorem readText_encoded {text : String} (bytes : disk.readBytes path = .ok (Text.Utf8.encode text))
    (allowed : disk.refuses .readFile path.toString = none)
    (plain : ∀ c ∈ text.toList, c ≠ '\r') : disk.readText path = .ok text := by
  rw [readText, bytes, allowed]
  dsimp only
  rw [Text.Utf8.decode_encode]
  dsimp only
  rw [Text.unifyLineEnds_none plain, String.ofList_toList]

end Written

end RailSpec.Disk
