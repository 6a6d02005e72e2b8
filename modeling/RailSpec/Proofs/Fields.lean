import RailSpec.Value

/-!
Laws of ordered fields. Giving a field a value keeps the order of the names that are there, names
stay distinct, and merging a list that was itself put together by merging is merging its parts.
-/

namespace RailSpec.Fields

variable {fields : Fields} {key name other : String} {value : Value}

@[simp] theorem value?_nil (name : String) : value? [] name = none :=
  rfl

theorem value?_cons (key name : String) (value : Value) (fields : Fields) :
    value? ((key, value) :: fields) name = if key = name then some value else value? fields name := by
  by_cases same : key = name
  · simp [value?, same]
  · have apart : (name == key) = false := by simpa using Ne.symm same
    simp [value?, List.lookup_cons, apart, same]

theorem value?_of_not_mem (absent : name ∉ names fields) : value? fields name = none := by
  induction fields with
  | nil => rfl
  | cons field rest ih =>
    obtain ⟨key, value⟩ := field
    simp only [names, List.map_cons, List.mem_cons, not_or] at absent
    rw [value?_cons, if_neg (Ne.symm absent.1)]
    exact ih absent.2

theorem mem_of_value? (found : value? fields name = some value) : (name, value) ∈ fields := by
  induction fields with
  | nil => simp [value?] at found
  | cons field rest ih =>
    obtain ⟨key, held⟩ := field
    rw [value?_cons] at found
    by_cases same : key = name
    · rw [if_pos same] at found
      simp [same, Option.some.inj found]
    · rw [if_neg same] at found
      exact List.mem_cons_of_mem _ (ih found)

theorem held_of_value? (found : value? fields name = some value) : value ∈ fields.map Prod.snd :=
  List.mem_map.mpr ⟨_, mem_of_value? found, rfl⟩

theorem value?_map (change : Value → Value) :
    value? (fields.map fun field => (field.1, change field.2)) name =
      (value? fields name).map change := by
  induction fields with
  | nil => rfl
  | cons field rest ih =>
    obtain ⟨key, held⟩ := field
    rw [List.map_cons, value?_cons, value?_cons, ih]
    split <;> rfl

theorem value?_filter (keep : String → Bool) (kept : keep name = true) :
    value? (fields.filter fun field => keep field.1) name = value? fields name := by
  induction fields with
  | nil => rfl
  | cons field rest ih =>
    obtain ⟨key, held⟩ := field
    rw [List.filter_cons, value?_cons]
    by_cases same : key = name
    · simp [same, kept, value?_cons]
    · split <;> simp [value?_cons, same, ih]

/-- No name stands twice. -/
def Distinct (fields : Fields) : Prop :=
  (names fields).Nodup

theorem value?_of_mem (distinct : Distinct fields) (member : (name, value) ∈ fields) :
    value? fields name = some value := by
  induction fields with
  | nil => simp at member
  | cons field rest ih =>
    obtain ⟨key, held⟩ := field
    obtain ⟨fresh, distinctRest⟩ := List.nodup_cons.mp distinct
    rw [value?_cons]
    rcases List.mem_cons.mp member with same | later
    · cases same
      simp
    · have present : name ∈ names rest := List.mem_map.mpr ⟨_, later, rfl⟩
      have different : key ≠ name := by
        rintro rfl
        exact fresh present
      rw [if_neg different]
      exact ih distinctRest later

theorem put_of_not_mem (absent : name ∉ names fields) (value : Value) :
    put fields name value = fields ++ [(name, value)] := by
  induction fields with
  | nil => rfl
  | cons field rest ih =>
    obtain ⟨key, held⟩ := field
    simp only [names, List.map_cons, List.mem_cons, not_or] at absent
    rw [put, if_neg (Ne.symm absent.1), ih absent.2, List.cons_append]

theorem mem_put {field : String × Value}
    (member : field ∈ put fields name value) : field = (name, value) ∨ field ∈ fields := by
  induction fields with
  | nil => exact .inl (List.mem_singleton.mp member)
  | cons first rest ih =>
    obtain ⟨key, held⟩ := first
    rw [put] at member
    split at member
    · rename_i same
      subst same
      rcases List.mem_cons.mp member with here | later
      · exact .inl here
      · exact .inr (List.mem_cons_of_mem _ later)
    · rcases List.mem_cons.mp member with here | later
      · exact .inr (List.mem_cons.mpr (.inl here))
      · rcases ih later with new | old
        · exact .inl new
        · exact .inr (List.mem_cons_of_mem _ old)

theorem names_put_of_mem (present : name ∈ names fields) (value : Value) :
    names (put fields name value) = names fields := by
  induction fields with
  | nil => simp [names] at present
  | cons field rest ih =>
    obtain ⟨key, held⟩ := field
    by_cases same : key = name
    · simp [put, same, names]
    · have later : name ∈ names rest := by
        simpa [names, Ne.symm same] using present
      simpa [put, same, names] using ih later

theorem names_put (fields : Fields) (name : String) (value : Value) :
    names (put fields name value) =
      if name ∈ names fields then names fields else names fields ++ [name] := by
  split
  · rename_i present
    exact names_put_of_mem present value
  · rename_i absent
    rw [put_of_not_mem absent]
    simp [names]

theorem mem_names_put (fields : Fields) (name : String) (value : Value) :
    name ∈ names (put fields name value) := by
  rw [names_put]
  split <;> simp_all

theorem Distinct.put (distinct : Distinct fields) (name : String) (value : Value) :
    Distinct (Fields.put fields name value) := by
  unfold Distinct at *
  rw [names_put]
  split
  · exact distinct
  · rename_i absent
    refine List.nodup_append.mpr ⟨distinct, by simp, ?_⟩
    intro held present added once same
    rw [List.mem_singleton.mp once] at same
    exact absent (same ▸ present)

theorem Distinct.merge (distinct : Distinct fields) (later : Fields) :
    Distinct (Fields.merge fields later) := by
  induction later generalizing fields with
  | nil => exact distinct
  | cons field rest ih => exact ih (distinct.put field.1 field.2)

theorem put_put (fields : Fields) (name : String) (first second : Value) :
    put (put fields name first) name second = put fields name second := by
  induction fields with
  | nil => simp [put]
  | cons field rest ih =>
    obtain ⟨key, held⟩ := field
    by_cases same : key = name <;> simp [put, same, ih]

/-- A field that is there keeps its place, whatever is put before its value. -/
theorem put_comm (present : name ∈ names fields) (different : other ≠ name)
    (first second : Value) :
    put (put fields other first) name second = put (put fields name second) other first := by
  induction fields with
  | nil => simp [names] at present
  | cons field rest ih =>
    obtain ⟨key, held⟩ := field
    by_cases same : key = name
    · subst key
      simp [put, Ne.symm different]
    · have later : name ∈ names rest := by
        simpa [names, Ne.symm same] using present
      by_cases equal : key = other
      · simp [put, equal, different]
      · simp [put, same, equal, ih later]

theorem merge_cons (fields : Fields) (name : String) (value : Value) (later : Fields) :
    merge fields ((name, value) :: later) = merge (put fields name value) later :=
  rfl

theorem merge_append (fields first second : Fields) :
    merge fields (first ++ second) = merge (merge fields first) second :=
  List.foldl_append ..

private theorem merge_put_of_mem (present : name ∈ names fields) (later : Fields)
    (absent : name ∉ names later) (value : Value) :
    put (merge fields later) name value = merge (put fields name value) later := by
  induction later generalizing fields with
  | nil => rfl
  | cons field rest ih =>
    obtain ⟨key, held⟩ := field
    simp only [names, List.map_cons, List.mem_cons, not_or] at absent
    have still : name ∈ names (put fields key held) := by
      rw [names_put]
      split <;> simp [present]
    rw [merge_cons, merge_cons, ih still absent.2, put_comm present (Ne.symm absent.1)]

/-- Putting a value into later fields puts it into the merged ones. -/
theorem merge_put (fields : Fields) {later : Fields} (distinct : Distinct later) (name : String)
    (value : Value) : merge fields (put later name value) = put (merge fields later) name value := by
  induction later generalizing fields with
  | nil => rfl
  | cons field rest ih =>
    obtain ⟨key, held⟩ := field
    obtain ⟨fresh, distinctRest⟩ := List.nodup_cons.mp distinct
    by_cases same : key = name
    · subst key
      simp only [put, if_true]
      rw [merge_cons, merge_cons, merge_put_of_mem (mem_names_put ..) rest fresh, put_put]
    · simp only [put, same, if_false]
      rw [merge_cons, merge_cons, ih _ distinctRest]

/-- Later fields may be merged among themselves first. -/
theorem merge_merge (fields later : Fields) :
    merge fields (merge [] later) = merge fields later := by
  have general (start : Fields) (distinct : Distinct start) :
      merge fields (merge start later) = merge (merge fields start) later := by
    induction later generalizing start with
    | nil => rfl
    | cons field rest ih =>
      obtain ⟨name, value⟩ := field
      rw [merge_cons, ih _ (distinct.put name value), merge_put fields distinct, merge_cons]
  exact general [] List.nodup_nil

/-- Fields with distinct names are merged into nothing as they are. -/
theorem merge_nil (distinct : Distinct fields) : merge [] fields = fields := by
  have general (start : Fields) (apart : Distinct (start ++ fields)) :
      merge start fields = start ++ fields := by
    induction fields generalizing start with
    | nil => exact (List.append_nil _).symm
    | cons field rest ih =>
      obtain ⟨name, value⟩ := field
      have absent : name ∉ names start := by
        intro present
        have clash := (List.nodup_append.mp (by simpa [Distinct, names] using apart)).2.2
        exact clash name (by simpa [names] using present) name (by simp) rfl
      have step : start ++ (name, value) :: rest = put start name value ++ rest := by
        rw [put_of_not_mem absent, List.append_assoc, List.singleton_append]
      rw [merge_cons, step]
      exact ih (List.nodup_cons.mp distinct).2 _ (by rwa [← step])
  exact general [] distinct

end RailSpec.Fields
