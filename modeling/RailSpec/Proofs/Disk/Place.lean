import RailSpec.Proofs.Disk.Path

/-!
Places and the ways between them. A resolved path is a place of names without parents, and a way
that does not lead out of its start goes straight down.
-/

namespace RailSpec.Disk.Path

/-- A place as resolving a path gives it. -/
structure IsPlace (place : Place) : Prop where
  names : ∀ name ∈ place, IsName name
  noParent : parentName ∉ place

theorem IsPlace.nil : IsPlace [] :=
  ⟨List.forall_mem_nil _, List.not_mem_nil⟩

theorem IsPlace.dropLast {place : Place} (proper : IsPlace place) : IsPlace place.dropLast :=
  ⟨fun name member => proper.names name (List.dropLast_subset _ member),
    fun member => proper.noParent (List.dropLast_subset _ member)⟩

theorem follow_noParent {place : Place} (proper : parentName ∉ place) (names : List String) :
    parentName ∉ follow place names := by
  induction names generalizing place with
  | nil => exact proper
  | cons name rest ih =>
    rw [follow]
    split
    · exact ih fun member => proper (List.dropLast_subset _ member)
    · rename_i down
      refine ih fun member => ?_
      rcases List.mem_append.mp member with early | last
      · exact proper early
      · exact down (List.mem_singleton.mp last).symm

/-- Whatever text a path is read from, it leads to such a place. -/
theorem resolve_isPlace {here : Place} (proper : IsPlace here) (text : String) :
    IsPlace ((ofString text).resolve here) := by
  refine ⟨resolve_names proper.names text, follow_noParent ?_ _⟩
  split
  · exact List.not_mem_nil
  · exact proper.noParent

theorem IsPlace.of_text (text : String) {place : Place}
    (same : (ofString text).resolve [] = place) : IsPlace place :=
  same ▸ resolve_isPlace .nil text

/-- The way between two places goes down from the first to the second, or begins upwards. -/
theorem between_cases (start target : Place) :
    (∃ rest, target = start ++ rest ∧ between start target = rest) ∨
      ∃ more, between start target = parentName :: more := by
  induction start generalizing target with
  | nil => exact .inl ⟨target, rfl, rfl⟩
  | cons first starts ih =>
    cases target with
    | nil => exact .inr ⟨_, rfl⟩
    | cons second targets =>
      rw [between]
      split
      · rename_i same
        subst same
        rcases ih targets with ⟨rest, down, way⟩ | up
        · exact .inl ⟨rest, by rw [down, List.cons_append], way⟩
        · exact .inr up
      · exact .inr ⟨_, rfl⟩

theorem toString_relative (name : String) (rest : List String) :
    toString ⟨"", name :: rest⟩ = Text.joined "/" (name :: rest) := by
  rw [toString, if_neg (by simp), String.empty_append]

/-- A way that does not lead out goes down. -/
theorem wayText_down {start target : Place} (inside : leadsOut (wayText start target) = false) :
    ∃ rest, target = start ++ rest ∧ wayText start target = toString ⟨"", rest⟩ := by
  rcases between_cases start target with ⟨rest, down, way⟩ | ⟨more, way⟩
  · exact ⟨rest, down, by rw [wayText, way]⟩
  · obtain ⟨tail, text⟩ := joined_cons parentName more
    have out : leadsOut (wayText start target) = true := by
      rw [leadsOut, wayText, way, toString_relative, text]
      exact List.isPrefixOf_iff_prefix.mpr (List.prefix_append ..)
    rw [out] at inside
    cases inside

end RailSpec.Disk.Path
