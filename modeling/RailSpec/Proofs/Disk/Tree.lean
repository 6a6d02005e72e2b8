import RailSpec.Disk.Tree

/-!
Steps on a file tree: where a path leads as long as directories stay, and all that the making and
the moving of a file change.
-/

namespace RailSpec.Disk.Tree

variable {tree later : Tree} {here place next : Place} {path : Path}

section Walks

/-- Every directory of a tree is one of another tree. -/
def DirectoriesStay (tree later : Tree) : Prop :=
  ∀ place, tree.found? place = some .directory → later.found? place = some .directory

variable (stay : DirectoriesStay tree later)
include stay

theorem step_stays {name : String} (done : tree.step place name = .ok next) :
    later.step place name = .ok next := by
  unfold step at done ⊢
  split at done
  · rename_i found
    rw [stay place found]
    exact done
  · cases done
  · cases done

theorem walk_stays {names : List String} (done : tree.walk place names = .ok next) :
    later.walk place names = .ok next := by
  induction names generalizing place with
  | nil => exact done
  | cons name rest ih =>
    rw [walk] at done ⊢
    split at done
    · rename_i between stepped
      rw [step_stays stay stepped]
      exact ih done
    · cases done

/-- A path leads where it did as long as directories stay. -/
theorem locate_stays (done : tree.locate here path = .ok place) :
    later.locate here path = .ok place := by
  unfold locate at done ⊢
  split at done
  · cases done
  · rename_i short
    rw [if_neg short]
    exact walk_stays stay done

end Walks

theorem walk_eq_follow {names : List String} (done : tree.walk place names = .ok next) :
    next = Path.follow place names := by
  induction names generalizing place with
  | nil => exact (Except.ok.inj done).symm
  | cons name rest ih =>
    rw [walk] at done
    split at done
    · rename_i between stepped
      rw [ih done, Path.follow]
      unfold step at stepped
      split at stepped
      · split at stepped
        · rename_i upwards
          cases stepped
          rw [if_pos upwards]
        · rename_i downwards
          split at stepped
          · cases stepped
          · cases stepped
            rw [if_neg downwards]
      · cases stepped
      · cases stepped
    · cases done

/-- Where a path leads, it leads by its names alone. -/
theorem locate_eq_resolve (done : tree.locate here path = .ok place) :
    place = path.resolve here := by
  unfold locate at done
  split at done
  · cases done
  · exact walk_eq_follow done

theorem below_of_vacant (vacant : tree.found? place = none) : place ≠ [] := by
  rintro rfl
  cases vacant

theorem found?_erase_same (tree : Tree) {source : Place} (below : source ≠ []) :
    (tree.erase source).found? source = none := by
  rw [found?, if_neg below, erase, List.lookup_eq_none_iff]
  intro held member
  have apart := of_decide_eq_true (List.mem_filter.mp member).2
  simpa using Ne.symm apart

theorem found?_erase_put {source : Place} {entry : Entry} (vacant : tree.found? source = none) :
    ((tree.put source entry).erase source).found? = tree.found? := by
  funext other
  by_cases same : other = source
  · rw [same, vacant, found?_erase_same _ (below_of_vacant vacant)]
  · rw [found?_erase_other _ same, found?_put_other _ _ same]

/-- What is put where nothing was is put over no directory. -/
theorem stay_of_vacant {entry : Entry} (vacant : tree.found? place = none) :
    DirectoriesStay tree (tree.put place entry) := by
  intro other directory
  rw [found?_put_other]
  · exact directory
  · rintro rfl
    cases vacant.symm.trans directory

/-- What is made is made where nothing was. -/
theorem create_cases {entry : Entry} (done : tree.create here path entry = .ok later) :
    tree.found? (path.resolve here) = none ∧ later = tree.put (path.resolve here) entry := by
  unfold create vacancy at done
  split at done
  · cases done
  · rename_i place located
    obtain rfl := locate_eq_resolve located
    split at done
    · rename_i free
      cases done
      simp only [Bool.and_eq_true, Option.isNone_iff_eq_none] at free
      exact ⟨free.2, rfl⟩
    · cases done

/-- A file is moved to where a path leads, and over no directory. -/
theorem rename_cases {source : Place} {content : ByteArray}
    (done : tree.rename here source content path = .ok later) :
    tree.locate here path = .ok (path.resolve here) ∧
      tree.found? (path.resolve here) ≠ some .directory ∧
      later = (tree.erase source).put (path.resolve here) (.file content) := by
  unfold rename at done
  split at done
  · cases done
  · rename_i place located
    obtain rfl := locate_eq_resolve located
    split at done
    · cases done
    · split at done
      · cases done
      · rename_i other
        exact ⟨located, other, (Except.ok.inj done).symm⟩

end RailSpec.Disk.Tree
