import RailSpec.Proofs.Disk.File

/-!
Trees in which whatever there is lies in a directory, as on a disk. Every write keeps a tree so,
also one that is refused.
-/

namespace RailSpec.Disk

namespace Tree

variable {tree later : Tree} {here place source : Place} {path : Path} {entry : Entry}

def Rooted (tree : Tree) : Prop :=
  ∀ place entry, tree.found? place = some entry → tree.found? place.dropLast = some .directory

theorem rooted_empty : Rooted ⟨[]⟩ := by
  intro place entry there
  cases place with
  | nil => rfl
  | cons name rest => cases there

/-- A way that ends in a name ends with a step from a directory. -/
theorem walk_above {names : List String} {name : String} {next : Place}
    (last : names.getLast? = some name) (down : name ≠ Path.parentName)
    (done : tree.walk place names = .ok next) :
    tree.found? next.dropLast = some .directory ∧ next ≠ [] := by
  induction names generalizing place with
  | nil => cases last
  | cons first rest ih =>
    rw [walk] at done
    split at done
    · rename_i between stepped
      cases rest with
      | cons second rest => exact ih (by simpa using last) done
      | nil =>
        cases done
        obtain rfl : first = name := by simpa using last
        unfold step at stepped
        split at stepped
        · rename_i directory
          rw [if_neg down] at stepped
          split at stepped <;> cases stepped
          simpa using directory
        · cases stepped
        · cases stepped
    · cases done

theorem locate_above (ends : endsInName path = true)
    (located : tree.locate here path = .ok place) :
    tree.found? place.dropLast = some .directory ∧ place ≠ [] := by
  simp only [endsInName, Bool.and_eq_true, decide_eq_true_eq, ne_eq] at ends
  obtain ⟨named, down⟩ := ends
  unfold locate at located
  split at located
  · cases located
  · cases last : path.names.getLast? with
    | none =>
      rw [Path.name, last] at named
      exact absurd rfl named
    | some name =>
      rw [Path.name, last] at down
      exact walk_above last down located

namespace Rooted

variable (rooted : tree.Rooted)
include rooted

/-- What is above something is a directory. -/
theorem above {front rest : Place} {name : String}
    (there : tree.found? (front ++ name :: rest) = some entry) :
    tree.found? front = some .directory := by
  induction rest generalizing front name entry with
  | nil => simpa using rooted _ _ there
  | cons next rest ih =>
    have inner : tree.found? (front ++ [name]) = some .directory := ih (by simpa using there)
    simpa using rooted _ _ inner

/-- Nothing is missing on the way to something. -/
theorem walk_there (place : Place) {names : List String} (down : Path.parentName ∉ names)
    (there : tree.found? (place ++ names) = some entry) :
    tree.walk place names ≠ .error .missing := by
  induction names generalizing place with
  | nil =>
    intro missing
    cases missing
  | cons name rest ih =>
    obtain ⟨apart, later⟩ := not_or.mp (mt List.mem_cons.mpr down)
    rw [walk, step, rooted.above there]
    dsimp only
    rw [if_neg (Ne.symm apart)]
    by_cases long : nameLimit < name.utf8ByteSize
    · rw [if_pos long]
      intro missing
      cases missing
    · rw [if_neg long]
      exact ih (place ++ [name]) later (by simpa using there)

theorem put (below : place ≠ []) (within : tree.found? place.dropLast = some .directory)
    (noDirectory : tree.found? place ≠ some .directory) : (tree.put place entry).Rooted := by
  have inside {other : Place} (directory : tree.found? other = some .directory) :
      (tree.put place entry).found? other = some .directory := by
    rw [found?_put_other]
    · exact directory
    · rintro rfl
      exact noDirectory directory
  intro other held there
  by_cases same : other = place
  · exact inside (same ▸ within)
  · rw [found?_put_other _ _ same] at there
    exact inside (rooted other held there)

theorem erase (noDirectory : tree.found? source ≠ some .directory) :
    (tree.erase source).Rooted := by
  have below : source ≠ [] := by
    rintro rfl
    exact noDirectory rfl
  intro other held there
  by_cases same : other = source
  · rw [same, found?_erase_same _ below] at there
    cases there
  · rw [found?_erase_other _ same] at there
    have directory := rooted other held there
    rw [found?_erase_other]
    · exact directory
    · intro above
      exact noDirectory (above ▸ directory)

theorem create (created : tree.create here path entry = .ok later) : later.Rooted := by
  unfold Tree.create vacancy at created
  split at created
  · cases created
  · rename_i place located
    split at created
    · rename_i free
      cases created
      simp only [Bool.and_eq_true, Option.isNone_iff_eq_none] at free
      obtain ⟨within, below⟩ := locate_above free.1 located
      exact rooted.put below within (by simp [free.2])
    · cases created

theorem rename {content : ByteArray} (noDirectory : tree.found? source ≠ some .directory)
    (moved : tree.rename here source content path = .ok later) : later.Rooted := by
  have erased := rooted.erase noDirectory
  unfold Tree.rename at moved
  split at moved
  · cases moved
  · rename_i place located
    split at moved
    · cases moved
    · rename_i ends
      obtain ⟨within, below⟩ := locate_above (by simpa using ends) located
      split at moved
      · cases moved
      · rename_i other
        cases moved
        refine erased.put below ?_ ?_
        · rw [found?_erase_other]
          · exact within
          · exact fun same => noDirectory (same ▸ within)
        · by_cases same : place = source
          · rw [same, found?_erase_same _ (same ▸ below)]
            exact nofun
          · rw [found?_erase_other _ same]
            exact other

end Rooted

end Tree

variable {disk made : Disk} {path : Path} {content : ByteArray}

theorem makeDirectory_rooted (rooted : disk.tree.Rooted)
    (done : disk.makeDirectory path = .ok made) : made.tree.Rooted := by
  unfold makeDirectory at done
  split at done
  · cases done
  · split at done
    · cases done
    · split at done
      · rename_i tree created
        cases done
        exact rooted.create created
      · cases done

theorem Makes.rooted (makes : disk.Makes path made) (rooted : disk.tree.Rooted) :
    made.tree.Rooted := by
  induction makes with
  | refl => exact rooted
  | step _ _ done ih => exact makeDirectory_rooted ih done

theorem createTemporary_rooted {temporary : Path} {marks : List String}
    (rooted : disk.tree.Rooted)
    (done : disk.createTemporary path marks = .ok (made, temporary)) : made.tree.Rooted := by
  induction marks with
  | nil => cases done
  | cons mark rest ih =>
    rw [createTemporary] at done
    split at done
    · cases done
    · split at done
      · exact ih done
      · exact ih done
      · cases done
      · cases done
      · rename_i tree allowed created
        cases done
        exact rooted.create created

theorem fillAndMove_rooted {temporary : Path} (rooted : disk.tree.Rooted)
    (noDirectory : disk.tree.found? (temporary.resolve disk.here) ≠ some .directory) :
    (disk.fillAndMove temporary path content).1.tree.Rooted := by
  unfold fillAndMove
  dsimp only
  split
  · exact rooted.erase noDirectory
  · split
    · exact rooted.erase noDirectory
    · exact rooted.erase noDirectory
    · rename_i moved
      exact rooted.rename noDirectory moved

theorem write_rooted (rooted : disk.tree.Rooted) (path : Path) (content : ByteArray)
    (overwrite : Bool) : (disk.write path content overwrite).1.tree.Rooted := by
  have above := (makeDirectories_makes disk path.parent).rooted rooted
  unfold write
  split
  · rename_i found
    rw [found] at above
    exact above
  · rename_i found
    rw [found] at above
    split
    · exact above
    · split
      · exact above
      · split
        · exact above
        · rename_i filled temporary named
          have inside := createTemporary_rooted above named
          obtain ⟨_, _, vacant, rfl⟩ := createTemporary_cases named
          refine fillAndMove_rooted inside ?_
          rw [Tree.found?_put_same _ _ (Tree.below_of_vacant vacant)]
          intro same
          cases same

end RailSpec.Disk
