import RailSpec.Disk.Path

/-!
Paths and their texts. A path from the root whose names are names, not points or empty and without
slashes, is read back from its text; all paths that are read have such names.
-/

namespace RailSpec.Disk.Path

/-- A name that the text of a path can hold between two slashes. -/
structure IsName (name : String) : Prop where
  leads : isName name.toList = true
  noSlash : '/' ∉ name.toList

section Pieces

theorem slash : "/".toList = ['/'] :=
  rfl

variable {piece text : List Char}

theorem pieces_noSlash (text : List Char) : ∀ piece ∈ pieces text, '/' ∉ piece := by
  induction text with
  | nil => simp [pieces]
  | cons c rest ih =>
    unfold pieces
    split
    · exact List.forall_mem_cons.mpr ⟨List.not_mem_nil, ih⟩
    · rename_i apart
      split
      · simpa using Ne.symm apart
      · rename_i piece others found
        rw [found] at ih
        obtain ⟨first, later⟩ := List.forall_mem_cons.mp ih
        refine List.forall_mem_cons.mpr ⟨fun member => ?_, later⟩
        rcases List.mem_cons.mp member with same | inside
        · exact apart same.symm
        · exact first inside

theorem pieces_slash (noSlash : '/' ∉ piece) :
    pieces (piece ++ '/' :: text) = piece :: pieces text := by
  induction piece with
  | nil => rfl
  | cons c rest ih =>
    obtain ⟨apart, later⟩ := not_or.mp (mt List.mem_cons.mpr noSlash)
    rw [List.cons_append, pieces, if_neg (Ne.symm apart), ih later]

theorem pieces_name (noSlash : '/' ∉ piece) : pieces piece = [piece] := by
  induction piece with
  | nil => rfl
  | cons c rest ih =>
    obtain ⟨apart, later⟩ := not_or.mp (mt List.mem_cons.mpr noSlash)
    rw [pieces, if_neg (Ne.symm apart), ih later]

theorem pieces_joined {name : String} {names : List String}
    (each : ∀ other ∈ name :: names, IsName other) :
    pieces (Text.joined "/" (name :: names)).toList = (name :: names).map String.toList := by
  induction names generalizing name with
  | nil => exact pieces_name (each name (List.mem_cons_self ..)).noSlash
  | cons next rest ih =>
    have first := each name (List.mem_cons_self ..)
    have later : ∀ other ∈ next :: rest, IsName other :=
      fun other member => each other (List.mem_cons_of_mem name member)
    rw [Text.joined, String.toList_append, String.toList_append, slash, List.append_assoc,
      List.singleton_append, pieces_slash first.noSlash, ih later]
    · rfl
    · exact fun none => List.cons_ne_nil _ _ none

end Pieces

theorem ofString_names (text : String) : ∀ name ∈ (ofString text).names, IsName name := by
  refine List.forall_mem_map.mpr fun piece member => ?_
  obtain ⟨inside, leads⟩ := List.mem_filter.mp member
  refine ⟨?_, ?_⟩
  · rwa [String.toList_ofList]
  · rw [String.toList_ofList]
    exact pieces_noSlash text.toList piece inside

theorem join_names {path other : Path} (each : ∀ name ∈ path.names, IsName name)
    (others : ∀ name ∈ other.names, IsName name) :
    ∀ name ∈ (path.join other).names, IsName name := by
  unfold join
  split
  · exact others
  · intro name member
    rcases List.mem_append.mp member with early | late
    · exact each name early
    · exact others name late

theorem follow_names {place : Place} {names : List String} (here : ∀ name ∈ place, IsName name)
    (each : ∀ name ∈ names, IsName name) : ∀ name ∈ follow place names, IsName name := by
  induction names generalizing place with
  | nil => exact here
  | cons name rest ih =>
    obtain ⟨first, later⟩ := List.forall_mem_cons.mp each
    rw [follow]
    split
    · exact ih (fun other member => here other (List.dropLast_subset _ member)) later
    · refine ih (fun other member => ?_) later
      rcases List.mem_append.mp member with early | last
      · exact here other early
      · rwa [List.mem_singleton.mp last]

/-- Whatever text a path is read from, it names a place of names. -/
theorem resolve_names {here : Place} (proper : ∀ name ∈ here, IsName name) (text : String) :
    ∀ name ∈ (ofString text).resolve here, IsName name := by
  refine follow_names ?_ (ofString_names text)
  split
  · exact List.forall_mem_nil _
  · exact proper

theorem joined_cons (name : String) (rest : List String) :
    ∃ more, (Text.joined "/" (name :: rest)).toList = name.toList ++ more := by
  cases rest with
  | nil => exact ⟨[], (List.append_nil _).symm⟩
  | cons next others =>
    refine ⟨'/' :: (Text.joined "/" (next :: others)).toList, ?_⟩
    rw [Text.joined, String.toList_append, String.toList_append, slash, List.append_assoc]
    · rfl
    · exact fun none => List.cons_ne_nil _ _ none

theorem joined_opening {name : String} (isName : IsName name) (rest : List String) :
    ∃ c more, (Text.joined "/" (name :: rest)).toList = c :: more ∧ c ≠ '/' := by
  obtain ⟨more, text⟩ := joined_cons name rest
  cases spelled : name.toList with
  | nil => simpa [Path.isName, spelled] using isName.leads
  | cons c front =>
    rw [spelled, List.cons_append] at text
    refine ⟨c, front ++ more, text, ?_⟩
    rintro rfl
    exact isName.noSlash (by rw [spelled]; exact List.mem_cons_self ..)

theorem rootOf_single {text : List Char} (opening : text.head? ≠ some '/') :
    rootOf ('/' :: text) = "/" := by
  unfold rootOf
  split
  · rfl
  · rename_i same
    exact absurd (by rw [(List.cons.inj same).2]; rfl) opening
  · rfl
  · rename_i other
    exact absurd rfl (other text)

theorem filter_names {names : List String} (each : ∀ name ∈ names, IsName name) :
    (names.map String.toList).filter isName = names.map String.toList := by
  rw [List.filter_eq_self]
  exact List.forall_mem_map.mpr fun name member => (each name member).leads

/-- A path from the root is read back from its text. -/
theorem ofString_toString {path : Path} (root : path.root = "/")
    (each : ∀ name ∈ path.names, IsName name) : ofString path.toString = path := by
  obtain ⟨start, names⟩ := path
  obtain rfl : start = "/" := root
  have text : (toString ⟨"/", names⟩).toList = '/' :: (Text.joined "/" names).toList := by
    rw [toString, if_neg (by simp), String.toList_append, slash, List.singleton_append]
  cases names with
  | nil => rfl
  | cons name rest =>
    have each : ∀ other ∈ name :: rest, IsName other := each
    have lone : rootOf ('/' :: (Text.joined "/" (name :: rest)).toList) = "/" := by
      obtain ⟨c, more, opening, apart⟩ := joined_opening (each name (List.mem_cons_self ..)) rest
      exact rootOf_single (by simpa [opening] using apart)
    rw [ofString, text, lone, pieces, if_pos rfl, pieces_joined each,
      List.filter_cons_of_neg (by decide), filter_names each, List.map_map]
    simp

/-- A path that does not begin at the root is read back from its names. -/
theorem ofString_joined {name : String} {rest : List String}
    (each : ∀ other ∈ name :: rest, IsName other) :
    ofString (Text.joined "/" (name :: rest)) = ⟨"", name :: rest⟩ := by
  have relative : rootOf (Text.joined "/" (name :: rest)).toList = "" := by
    obtain ⟨c, more, opening, apart⟩ := joined_opening (each name (List.mem_cons_self ..)) rest
    rw [opening, rootOf]
    all_goals
      intro others same
      exact apart (List.cons.inj same).1
  rw [ofString, relative, pieces_joined each, filter_names each, List.map_map]
  simp

/-! Following names. -/

theorem resolve_root (here : Place) (names : List String) :
    resolve here ⟨"/", names⟩ = follow [] names :=
  rfl

theorem follow_append (place : Place) (names others : List String) :
    follow place (names ++ others) = follow (follow place names) others := by
  induction names generalizing place with
  | nil => rfl
  | cons name rest ih =>
    rw [List.cons_append, follow, follow]
    split
    · exact ih place.dropLast
    · exact ih (place ++ [name])

/-- Without parents among them, names lead down. -/
theorem follow_down {names : List String} (down : parentName ∉ names) (place : Place) :
    follow place names = place ++ names := by
  induction names generalizing place with
  | nil => exact (List.append_nil place).symm
  | cons name rest ih =>
    obtain ⟨apart, later⟩ := not_or.mp (mt List.mem_cons.mpr down)
    rw [follow, if_neg (Ne.symm apart), ih later, List.append_assoc, List.singleton_append]

end RailSpec.Disk.Path
