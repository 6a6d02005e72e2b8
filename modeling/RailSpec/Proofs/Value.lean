import RailSpec.Value

/-!
Induction over values: what holds of a value whenever it holds of the values it is made of, holds of
every value.
-/

namespace RailSpec.Value

/-- The values that a value is made of. -/
def parts : Value → List Value
  | .list items | .tuple items => items
  | .mapping fields | .object fields => fields.map Prod.snd
  | .deferred inner => [inner]
  | _ => []

theorem items?_parts {value : Value} {items : List Value} (found : value.items? = some items) :
    value.parts = items := by
  cases value with
  | list held => exact Option.some.inj found
  | tuple held => exact Option.some.inj found
  | _ => cases found

@[elab_as_elim]
theorem byParts {holds : Value → Prop}
    (step : ∀ value, (∀ part ∈ value.parts, holds part) → holds value) (value : Value) :
    holds value := by
  have none_of (part : Value) (member : part ∈ ([] : List Value)) : holds part := by
    simp at member
  refine @Value.rec holds (fun items => ∀ part ∈ items, holds part)
    (fun fields => ∀ part ∈ fields.map Prod.snd, holds part) (fun field => holds field.2)
    ?null ?bool ?int ?float ?text ?list ?tuple ?mapping ?deferred ?object ?noItem ?item ?noField
    ?field ?pair value
  case null => exact step _ none_of
  case bool => exact fun _ => step _ none_of
  case int => exact fun _ => step _ none_of
  case float => exact fun _ => step _ none_of
  case text => exact fun _ => step _ none_of
  case list => exact fun items each => step _ each
  case tuple => exact fun items each => step _ each
  case mapping => exact fun fields each => step _ each
  case object => exact fun fields each => step _ each
  case deferred =>
    intro inner whole
    refine step _ fun part member => ?_
    rw [List.mem_singleton.mp member]
    exact whole
  case noItem => exact none_of
  case noField => exact none_of
  case item => exact fun item rest here later => List.forall_mem_cons.mpr ⟨here, later⟩
  case field => exact fun field rest here later => List.forall_mem_cons.mpr ⟨here, later⟩
  case pair => exact fun name value here => here

/-- The same with two layers at hand: the parts of a value and their parts. -/
@[elab_as_elim]
theorem byLayers {holds : Value → Prop}
    (step : ∀ value, (∀ part ∈ value.parts, holds part ∧ ∀ inner ∈ part.parts, holds inner) →
      holds value) (value : Value) : holds value := by
  have deep : holds value ∧ ∀ part ∈ value.parts, holds part := by
    induction value using byParts with
    | step value ih => exact ⟨step value ih, fun part member => (ih part member).1⟩
  exact deep.1

end RailSpec.Value
