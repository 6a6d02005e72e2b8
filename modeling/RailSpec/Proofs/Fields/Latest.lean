import Mathlib.Data.List.Basic
import RailSpec.Proofs.Fields

/-!
Which values are left when fields are put one after the other: of each name the last one, in the
order in which the names first come up.
-/

namespace RailSpec.Fields

variable {fields : Fields} {name : String} {value : Value}

theorem value?_append (first second : Fields) (name : String) :
    value? (first ++ second) name = (value? first name).or (value? second name) :=
  List.lookup_append

theorem value?_put (fields : Fields) (name other : String) (value : Value) :
    value? (put fields name value) other = if name = other then some value else value? fields other := by
  by_cases same : name = other
  · subst same
    rw [if_pos rfl, value?_put_same]
  · rw [if_neg same, value?_put_other fields value (Ne.symm same)]

theorem value?_merge (fields entries : Fields) (name : String) :
    value? (merge fields entries) name =
      (value? entries.reverse name).or (value? fields name) := by
  induction entries generalizing fields with
  | nil => rfl
  | cons field rest ih =>
    obtain ⟨key, value⟩ := field
    rw [merge_cons, ih, value?_put, List.reverse_cons, value?_append, Option.or_assoc, value?_cons]
    by_cases same : key = name <;> simp [same]

@[simp] theorem names_nil : names [] = [] :=
  rfl

@[simp] theorem names_cons (name : String) (value : Value) (fields : Fields) :
    names ((name, value) :: fields) = name :: names fields :=
  rfl

/-- Merging adds the names that are not there yet, each where it first comes up. -/
theorem names_merge (fields entries : Fields) :
    names (merge fields entries) =
      names fields ++ ((names entries).filter fun name => name ∉ names fields).eraseDups := by
  induction entries generalizing fields with
  | nil => simp [merge]
  | cons field rest ih =>
    obtain ⟨key, value⟩ := field
    rw [merge_cons, ih, names_put, names_cons]
    by_cases present : key ∈ names fields
    · simp [present]
    · simp [present, List.eraseDups_cons, List.filter_filter, and_comm, Bool.beq_eq_decide_eq]

/-- The last value of each name, in the order in which the names first come up. -/
def latest (entries : Fields) : Fields :=
  (names entries).eraseDups.filterMap fun name =>
    (value? entries.reverse name).map fun value => (name, value)

/-- Fields with distinct names are what their names and values say. -/
theorem Distinct.rebuild (distinct : Distinct fields) :
    fields = (names fields).filterMap fun name =>
      (value? fields name).map fun value => (name, value) := by
  induction fields with
  | nil => rfl
  | cons field rest ih =>
    obtain ⟨key, value⟩ := field
    obtain ⟨fresh, distinctRest⟩ := List.nodup_cons.mp distinct
    have later : ∀ name ∈ names rest, value? ((key, value) :: rest) name = value? rest name := by
      intro name present
      rw [value?_cons, if_neg]
      rintro rfl
      exact fresh present
    rw [names_cons, List.filterMap_cons, value?_cons, if_pos rfl]
    apply congrArg (List.cons (key, value))
    calc rest = (names rest).filterMap fun name =>
          (value? rest name).map fun value => (name, value) := ih distinctRest
      _ = _ := by
        apply List.filterMap_congr
        intro name present
        rw [later name present]

theorem merge_nil_eq_latest (entries : Fields) : merge [] entries = latest entries := by
  have empty : Distinct [] := List.nodup_nil
  have first : names (merge [] entries) = (names entries).eraseDups := by
    rw [names_merge]
    simp
  rw [(empty.merge entries).rebuild, first, latest]
  apply List.filterMap_congr
  intro name _
  rw [value?_merge, value?_nil, Option.or_none]

theorem names_latest (entries : Fields) : names (latest entries) = (names entries).eraseDups := by
  rw [← merge_nil_eq_latest, names_merge]
  simp

theorem value?_latest (entries : Fields) (name : String) :
    value? (latest entries) name = value? entries.reverse name := by
  rw [← merge_nil_eq_latest, value?_merge, value?_nil, Option.or_none]

end RailSpec.Fields
