/-!
Results of readers that may fail: what a result says about the steps that it was put together from,
and readers that give a result put together from others that do.
-/

namespace RailSpec

variable {ε φ α β γ : Type}

theorem bind_ok {first : Except ε α} {next : α → Except ε β} {result : β}
    (done : first >>= next = .ok result) : ∃ value, first = .ok value ∧ next value = .ok result := by
  cases first with
  | error fault => cases done
  | ok value => exact ⟨value, rfl, done⟩

theorem map_ok {first : Except ε α} {change : α → β} {result : β}
    (done : first.map change = .ok result) : ∃ value, first = .ok value ∧ change value = result := by
  cases first with
  | error fault => cases done
  | ok value => exact ⟨value, rfl, Except.ok.inj done⟩

@[simp] theorem ok_mapError (change : ε → φ) (value : α) :
    (Except.ok value).mapError change = .ok value :=
  rfl

theorem mapError_ok {change : ε → φ} {first : Except ε α} {result : α}
    (done : first.mapError change = .ok result) : first = .ok result := by
  cases first with
  | error fault => cases done
  | ok value => exact congrArg Except.ok (Except.ok.inj done)

/-- The fault of a reader, if it has one. -/
def fault? : Except ε α → Option ε
  | .error fault => some fault
  | .ok _ => none

theorem eq_of_fault? {fault : ε} {result : Except ε α}
    (found : fault? result = some fault) :
    result = .error fault := by
  cases result with
  | error other => exact congrArg Except.error (Option.some.inj found)
  | ok value => cases found

theorem map_ok_iff {first : Except ε α} {change : α → β} :
    (∃ result, first.map change = .ok result) ↔ ∃ value, first = .ok value := by
  constructor
  · rintro ⟨result, done⟩
    obtain ⟨value, here, _⟩ := map_ok done
    exact ⟨value, here⟩
  · rintro ⟨value, rfl⟩
    exact ⟨change value, rfl⟩

/-- Two readers one after the other give a result just if each does. -/
theorem both_ok_iff {first : Except ε α} {second : Except ε β} {join : α → β → γ} :
    (∃ result, (do
      let value ← first
      let other ← second
      return join value other) = .ok result) ↔
      (∃ value, first = .ok value) ∧ ∃ other, second = .ok other := by
  constructor
  · rintro ⟨result, done⟩
    obtain ⟨value, here, more⟩ := bind_ok done
    obtain ⟨other, there, _⟩ := bind_ok more
    exact ⟨⟨value, here⟩, other, there⟩
  · rintro ⟨⟨value, rfl⟩, other, rfl⟩
    exact ⟨join value other, rfl⟩

theorem mapM_ok_iff {read : α → Except ε β} {items : List α} :
    (∃ results, items.mapM read = .ok results) ↔ ∀ item ∈ items, ∃ result, read item = .ok result := by
  induction items with
  | nil => exact ⟨fun _ => List.forall_mem_nil _, fun _ => ⟨[], rfl⟩⟩
  | cons item rest ih => rw [List.mapM_cons, both_ok_iff, ih, List.forall_mem_cons]

/-- There is a result, and what holds of it. -/
def Returns (result : Except ε α) (holds : α → Prop) : Prop :=
  ∃ value, result = .ok value ∧ holds value

namespace Returns

variable {holds weak : α → Prop} {more : β → Prop} {result : Except ε α}

theorem ok {value : α} (right : holds value) : Returns (.ok value : Except ε α) holds :=
  ⟨value, rfl, right⟩

theorem mono (returns : Returns result holds) (weaker : ∀ value, holds value → weak value) :
    Returns result weak := by
  obtain ⟨value, done, right⟩ := returns
  exact ⟨value, done, weaker value right⟩

theorem bind (returns : Returns result holds) {next : α → Except ε β}
    (later : ∀ value, holds value → Returns (next value) more) :
    Returns (result >>= next) more := by
  obtain ⟨value, rfl, right⟩ := returns
  exact later value right

theorem map (returns : Returns result holds) {change : α → β}
    (keeps : ∀ value, holds value → more (change value)) : Returns (result.map change) more := by
  obtain ⟨value, rfl, right⟩ := returns
  exact ok (keeps value right)

end Returns

end RailSpec
