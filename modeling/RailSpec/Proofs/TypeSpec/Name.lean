import RailSpec.Proofs.Text.Casing
import RailSpec.Proofs.TypeSpec.Parts
import RailSpec.TypeSpec.Document

/-!
Names of types. A type name has a slash only if its source has one: upper-casing makes none. Nor does
it make separators, so a type name is a single part, and since that part starts with a settled
upper-case form, the type name of a type name is the name itself.
-/

namespace RailSpec.TypeSpec

section Slashes

theorem upper_noSlash {c : Char} (apart : c ≠ '/') : '/' ∉ Text.upper c := by
  intro slash
  rcases Text.mem_upper slash with same | ⟨-, other, -⟩
  · exact apart same.symm
  · exact other rfl

theorem capitalized_noSlash {part : List Char} (noSlash : '/' ∉ part) :
    '/' ∉ capitalized part := by
  cases part with
  | nil => exact List.not_mem_nil
  | cons first rest =>
    obtain ⟨apart, later⟩ := not_or.mp (mt List.mem_cons.mpr noSlash)
    intro member
    rcases List.mem_append.mp member with upper | behind
    · exact upper_noSlash (Ne.symm apart) upper
    · exact later behind

/-- A type name has no slash if its source has none. -/
theorem className_noSlash {name : String} (noSlash : '/' ∉ name.toList) :
    '/' ∉ (className name).toList := by
  unfold className
  split
  · decide
  · rw [String.toList_ofList]
    intro member
    obtain ⟨part, within, slash⟩ := List.mem_flatMap.mp member
    obtain ⟨-, -, inside⟩ := of_mem_parts within
    exact capitalized_noSlash (fun among => noSlash (inside among)) slash

/-- Nor has the name of a document, with an extension without slashes. -/
theorem fileName_noSlash {frame : Frame} {name : String} (noSlash : '/' ∉ name.toList)
    (plain : '/' ∉ frame.fileExtension.toList) :
    '/' ∉ (frame.fileName (className name)).toList := by
  rw [Frame.fileName, String.toList_append]
  intro member
  rcases List.mem_append.mp member with front | behind
  · exact className_noSlash noSlash front
  · exact plain behind

end Slashes

section Separators

theorem upper_apart {c : Char} (inside : separatesName c = false) :
    ∀ u ∈ Text.upper c, separatesName u = false := by
  intro u member
  rcases Text.mem_upper member with rfl | ⟨solid, -, other⟩
  · exact inside
  · simp [separatesName, solid, other]

/-- A capitalized part is a part, and capitalizing it again changes nothing. -/
theorem capitalized_part {part : List Char} (filled : part ≠ [])
    (together : ∀ c ∈ part, separatesName c = false) :
    (∀ c ∈ capitalized part, separatesName c = false) ∧
      ∃ first rest, capitalized part = first :: rest ∧ Text.upper first = [first] := by
  obtain ⟨c, others, rfl⟩ := List.exists_cons_of_ne_nil filled
  obtain ⟨inside, later⟩ := List.forall_mem_cons.mp together
  obtain ⟨first, more, opens, settled⟩ := Text.upper_settled c
  constructor
  · intro u member
    rcases List.mem_append.mp member with upper | behind
    · exact upper_apart inside u upper
    · exact later u behind
  · exact ⟨first, more ++ others, by rw [capitalized, opens, List.cons_append], settled⟩

theorem className_toList {name : String} (named : parts separatesName name.toList ≠ []) :
    (className name).toList = (parts separatesName name.toList).flatMap capitalized := by
  unfold className
  split
  · rename_i none
    exact absurd none named
  · exact String.toList_ofList

theorem className_unnamed {name : String} (unnamed : parts separatesName name.toList = []) :
    className name = defaultName := by
  rw [className, unnamed]

theorem className_congr {name other : String}
    (same : parts separatesName name.toList = parts separatesName other.toList) :
    className name = className other := by
  rw [className, same, className]

/-- A type name has no separators and starts with a settled upper-case form. -/
theorem className_settled (name : String) :
    (∀ c ∈ (className name).toList, separatesName c = false) ∧
      ∃ first rest, (className name).toList = first :: rest ∧ Text.upper first = [first] := by
  by_cases unnamed : parts separatesName name.toList = []
  · have apart : defaultName.toList.all (!separatesName ·) = true := by decide
    rw [className_unnamed unnamed]
    exact ⟨by simpa using List.all_eq_true.mp apart, 'M', "odel".toList, rfl, by decide⟩
  · have capital {part : List Char} (member : part ∈ parts separatesName name.toList) :=
      capitalized_part (of_mem_parts member).1 (of_mem_parts member).2.1
    rw [className_toList unnamed]
    constructor
    · intro c member
      obtain ⟨part, listed, within⟩ := List.mem_flatMap.mp member
      exact (capital listed).1 c within
    · obtain ⟨part, others, split⟩ := List.exists_cons_of_ne_nil unnamed
      obtain ⟨first, rest, opens, settled⟩ := (capital (split ▸ List.mem_cons_self ..)).2
      refine ⟨first, rest ++ others.flatMap capitalized, ?_, settled⟩
      rw [split, List.flatMap_cons, opens, List.cons_append]

/-- Such a name is its own type name. -/
theorem className_eq_self {name : String} {first : Char} {rest : List Char}
    (together : ∀ c ∈ name.toList, separatesName c = false) (opens : name.toList = first :: rest)
    (settled : Text.upper first = [first]) : className name = name := by
  have filled : name.toList ≠ [] := by simp [opens]
  have single : parts separatesName name.toList = [name.toList] := by
    have whole : parts separatesName (name.toList ++ []) = name.toList :: parts separatesName [] :=
      parts_run filled together nofun
    rwa [List.append_nil] at whole
  apply String.toList_inj.mp
  rw [className_toList (by simp [single]), single, List.flatMap_singleton, opens, capitalized, settled]
  rfl

/-- A name with a character besides underscores and blanks. -/
def HasPart (name : String) : Prop :=
  ∃ c ∈ name.toList, separatesName c = false

theorem HasPart.parts_ne_nil {name : String} (named : HasPart name) :
    parts separatesName name.toList ≠ [] := by
  obtain ⟨c, member, inside⟩ := named
  intro none
  rw [parts_eq_nil_iff.mp none c member] at inside
  cases inside

/-- A type name is filled, has no separators and is its own type name. Separators around a name do
not matter, and names with separators between them give their type names one after the other. -/
theorem className_composes (name : String) :
    (className name ≠ "" ∧ (∀ c ∈ (className name).toList, separatesName c = false) ∧
        className (className name) = className name) ∧
      ∀ separators, (∀ c ∈ separators.toList, separatesName c = true) →
        className (separators ++ name ++ separators) = className name ∧
          ∀ second, separators ≠ "" → HasPart name → HasPart second →
            className (name ++ separators ++ second) = className name ++ className second := by
  obtain ⟨together, first, rest, opens, settled⟩ := className_settled name
  refine ⟨⟨?_, together, className_eq_self together opens settled⟩, ?_⟩
  · intro empty
    rw [empty] at opens
    cases opens
  · intro separators apart
    constructor
    · apply className_congr
      rw [String.toList_append, String.toList_append, List.append_assoc]
      exact parts_hemmed apart apart
    · intro second filled named alsoNamed
      have cut : parts separatesName (name ++ separators ++ second).toList =
          parts separatesName name.toList ++ parts separatesName second.toList := by
        rw [String.toList_append, String.toList_append, List.append_assoc]
        exact parts_between (mt String.toList_eq_nil_iff.mp filled) apart
      have both : parts separatesName (name ++ separators ++ second).toList ≠ [] := by
        rw [cut]
        exact List.append_ne_nil_of_left_ne_nil named.parts_ne_nil _
      apply String.toList_inj.mp
      rw [className_toList both, cut, List.flatMap_append, String.toList_append,
        className_toList named.parts_ne_nil, className_toList alsoNamed.parts_ne_nil]

/-- A letter that is two in upper case, and a digraph that has a title form besides. -/
theorem className_composes_street :
    className ("ßtraße" ++ "\u2003_ " ++ "ǆungla") = "SStraßeǄungla" ∧
      className (className "ßtraße_ǆungla") = className "ßtraße_ǆungla" := by
  have named : HasPart "ßtraße" := ⟨'ß', by decide, by decide⟩
  have alsoNamed : HasPart "ǆungla" := ⟨'ǆ', by decide, by decide⟩
  obtain ⟨-, composes⟩ := className_composes "ßtraße"
  obtain ⟨⟨-, -, settled⟩, -⟩ := className_composes "ßtraße_ǆungla"
  have apart : "\u2003_ ".toList.all separatesName = true := by decide
  obtain ⟨-, between⟩ := composes "\u2003_ " (List.all_eq_true.mp apart)
  refine ⟨?_, settled⟩
  rw [between "ǆungla" (by decide) named alsoNamed]
  decide +kernel

end Separators

end RailSpec.TypeSpec
