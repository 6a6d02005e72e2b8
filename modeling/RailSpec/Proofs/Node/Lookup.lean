import RailSpec.Node.Call
import RailSpec.Node.Options
import RailSpec.Node.Walk
import RailSpec.Proofs.Fields
import RailSpec.Proofs.Result
import RailSpec.Proofs.Value

/-!
The readers of nodes as look-ups. Readers that go through the fields of a node one by one, so that
their recursion follows the data, read no more than the value under one name; walks below a node
take its fields one after the other.
-/

namespace RailSpec

namespace Fields

/-- The items of the list or tuple under a name. -/
def items? (fields : Fields) (name : String) : Option (List Value) :=
  (value? fields name).bind Value.items?

/-- The value under a name, if it is not null. -/
def given? (fields : Fields) (name : String) : Option Value :=
  (value? fields name).filter fun value => !value.isNull

@[simp] theorem items?_nil (name : String) : items? [] name = none :=
  rfl

theorem items?_cons (key name : String) (value : Value) (fields : Fields) :
    items? ((key, value) :: fields) name = if key = name then value.items? else items? fields name := by
  rw [items?, value?_cons]
  split <;> rfl

@[simp] theorem given?_nil (name : String) : given? [] name = none :=
  rfl

theorem given?_cons (key name : String) (value : Value) (fields : Fields) :
    given? ((key, value) :: fields) name =
      if key = name then if value.isNull then none else some value else given? fields name := by
  rw [given?, value?_cons]
  split
  · cases empty : value.isNull <;> simp [Option.filter_some, empty]
  · rfl

theorem value?_of_given? {fields : Fields} {name : String} {value : Value}
    (found : given? fields name = some value) : value? fields name = some value :=
  (Option.filter_eq_some_iff.mp found).1

theorem getD_given? (fields : Fields) (name : String) :
    (given? fields name).getD .null = (value? fields name).getD .null := by
  rw [given?]
  cases value? fields name with
  | none => rfl
  | some value => cases value <;> rfl

/-- What holds of the values of all fields, and of null, holds of what is given under two names. -/
theorem forall_given {holds : Value → Prop} {fields : Fields}
    (each : ∀ value ∈ fields.map Prod.snd, holds value) (null : holds .null)
    (name other : String) : holds (((given? fields name).or (given? fields other)).getD .null) := by
  cases first : given? fields name with
  | some value => exact each value (held_of_value? (value?_of_given? first))
  | none =>
    cases second : given? fields other with
    | some value => exact each value (held_of_value? (value?_of_given? second))
    | none => exact null

/-- What holds of the values of all fields and of their parts holds of the items of each list. -/
theorem forall_items {holds : Value → Prop} {fields : Fields}
    (each : ∀ value ∈ fields.map Prod.snd, holds value ∧ ∀ part ∈ value.parts, holds part)
    {name : String} {items : List Value} (found : items? fields name = some items) :
    ∀ item ∈ items, holds item := by
  obtain ⟨value, held, inside⟩ := Option.bind_eq_some_iff.mp found
  have parts := (each value (held_of_value? held)).2
  rwa [Value.items?_parts inside] at parts

end Fields

namespace Source

/-- A piece of source stands for a text, a truth value or null. -/
theorem literal_cases (text : List Char) : (∃ inner, literal text = .text inner) ∨
    (∃ truth, literal text = .bool truth) ∨ literal text = .null := by
  unfold literal
  repeat' split
  all_goals first | exact .inl ⟨_, rfl⟩ | exact .inr (.inl ⟨_, rfl⟩) | exact .inr (.inr rfl)

theorem recover_cases (source : Source) (fields : Fields) :
    (∃ inner, (source.recover fields).getD .null = .text inner) ∨
    (∃ truth, (source.recover fields).getD .null = .bool truth) ∨
    (source.recover fields).getD .null = .null := by
  cases recovered : source.recover fields with
  | none => exact .inr (.inr rfl)
  | some value =>
    obtain ⟨span, _, rfl⟩ := Option.map_eq_some_iff.mp recovered
    exact literal_cases _

end Source

namespace Literal

open Number (DigitFault)

variable (source : Source) (name : String) (fields : Fields)

theorem resolveList_eq :
    resolveList source name fields = (fields.items? name).map (resolveEach source) := by
  induction fields with
  | nil => rfl
  | cons field rest ih =>
    obtain ⟨key, value⟩ := field
    cases value <;> by_cases same : key = name <;>
      simp [resolveList, same, ih, Fields.items?_cons, Value.items?]

theorem resolvePairs_eq :
    resolvePairs source fields = (fields.items? "pairs").map (resolveOptions source []) := by
  induction fields with
  | nil => rfl
  | cons field rest ih =>
    obtain ⟨key, value⟩ := field
    cases value <;> by_cases same : key = "pairs" <;>
      simp [resolvePairs, same, ih, Fields.items?_cons, Value.items?]

theorem resolveField_eq :
    resolveField source name fields = (fields.given? name).map (resolve source) := by
  induction fields with
  | nil => rfl
  | cons field rest ih =>
    obtain ⟨key, value⟩ := field
    cases value <;> by_cases same : key = name <;>
      simp [resolveField, same, ih, Fields.given?_cons, Value.isNull]

/-- The literal that the fields of a node stand for, by the order of the structured forms. -/
theorem resolve_mapping :
    resolve source (.mapping fields) =
      match heldValue? fields, fields.items? "parts", fields.items? "elements",
        fields.items? "pairs" with
      | some value, _, _, _ => .ok value
      | none, some parts, _, _ => ((resolveEach source parts).bind partsText).map .text
      | none, none, some elements, _ => (resolveEach source elements).map .list
      | none, none, none, some pairs => (resolveOptions source [] pairs).map .mapping
      | none, none, none, none => .ok ((source.recover fields).getD .null) := by
  rw [resolve, resolveList_eq, resolveList_eq, resolvePairs_eq]
  cases heldValue? fields <;> cases fields.items? "parts" <;> cases fields.items? "elements" <;>
    cases fields.items? "pairs" <;> rfl

theorem resolve_items {value : Value} {items : List Value} (found : value.items? = some items) :
    resolve source value = (resolveEach source items).map .list := by
  cases value with
  | list held =>
    cases found
    rw [resolve]
  | tuple held =>
    cases found
    rw [resolve]
  | _ => cases found

/-- A key with its value: none unless the key is a text with something in it. -/
def pairOf (key value : Except DigitFault Value) : Except DigitFault (Option (String × Value)) := do
  match (← key).nonEmptyText? with
  | some name => return some (name, ← value)
  | none => return none

theorem value_of_pairOf {key value : Except DigitFault Value} {name : String} {literal : Value}
    (found : pairOf key value = .ok (some (name, literal))) : value = .ok literal := by
  obtain ⟨spelled, _, more⟩ := bind_ok found
  split at more
  · obtain ⟨held, here, last⟩ := bind_ok more
    cases last
    exact here
  · cases more

/-- A list or a tuple is a pair if it has two items. -/
theorem resolvePair_items {value : Value} {items : List Value} : value.items? = some items →
    resolvePair source value =
      match items with
      | [key, held] => pairOf (resolve source key) (resolve source held)
      | _ => .ok none := by
  intro found
  have shape : value = .list items ∨ value = .tuple items := by
    cases value with
    | list held => exact .inl (congrArg Value.list (Option.some.inj found))
    | tuple held => exact .inr (congrArg Value.tuple (Option.some.inj found))
    | _ => cases found
  rcases items with _ | ⟨key, _ | ⟨held, _ | ⟨third, rest⟩⟩⟩
  all_goals rcases shape with rfl | rfl <;> rfl

/-- A node is a pair of what it gives as its key and as its value. -/
theorem resolvePair_mapping :
    resolvePair source (.mapping fields) =
      pairOf (resolve source (((fields.given? "key").or (fields.given? "name")).getD .null))
        (resolve source (((fields.given? "value").or (fields.given? "val")).getD .null)) := by
  have under (first second : Option Value) :
      ((first.map (resolve source)).or (second.map (resolve source))).getD (.ok .null) =
        resolve source ((first.or second).getD .null) := by
    cases first <;> cases second <;> rfl
  rw [resolvePair, ← under, ← under]
  simp only [resolveField_eq]
  rfl

/-- A node that has just a tag, a key and a value is a pair of these. -/
theorem resolvePair_node (tag : String) (key value : Value) :
    resolvePair source (.mapping [("type", .text tag), ("key", key), ("value", value)]) =
      pairOf (resolve source key) (resolve source value) := by
  have noName : Fields.given? [("type", .text tag), ("key", key), ("value", value)] "name" = none := by
    simp [Fields.given?_cons]
  have noVal : Fields.given? [("type", .text tag), ("key", key), ("value", value)] "val" = none := by
    simp [Fields.given?_cons]
  rw [resolvePair_mapping, noName, noVal, Option.or_none, Option.or_none, Fields.getD_given?,
    Fields.getD_given?]
  rfl

theorem resolve_deferred :
    resolve source (.deferred (.mapping fields)) = resolve source (.mapping fields) := by
  rw [resolve, resolve]

theorem resolvePair_deferred :
    resolvePair source (.deferred (.mapping fields)) = resolvePair source (.mapping fields) := by
  rw [resolvePair, resolvePair]

/-- A node stands for the same whichever way its fields are kept. -/
theorem resolve_fields {node : Value} {fields : Fields} (given : Node.fields? node = some fields) :
    resolve source node = resolve source (.mapping fields) := by
  cases node with
  | mapping held =>
    cases given
    rfl
  | deferred inner =>
    cases inner with
    | mapping held =>
      cases given
      exact resolve_deferred ..
    | _ => cases given
  | _ => cases given

end Literal

namespace Node

variable (owner : Fields) (fields : Fields) (items : List Value)

theorem mem_visitOf {parent : Option Fields} {fields : Fields} {visit : Visit}
    (member : visit ∈ visitOf parent fields) : visit = ⟨fields, parent⟩ := by
  unfold visitOf at member
  split at member
  · exact List.mem_singleton.mp member
  · cases member

/-- What is visited does not depend on the node around the first visit. -/
theorem visits_fields (parent other : Option Fields) (value : Value) :
    (visits parent value).map Visit.fields = (visits other value).map Visit.fields := by
  have node (fields : Fields) :
      (visitOf parent fields).map Visit.fields = (visitOf other fields).map Visit.fields := by
    unfold visitOf
    split <;> rfl
  cases value with
  | mapping fields => rw [visits, visits, List.map_append, List.map_append, node]
  | deferred inner =>
    cases inner with
    | mapping fields => rw [visits, visits, List.map_append, List.map_append, node]
    | _ => rfl
  | _ => rfl

theorem visitsBelow_eq : visitsBelow owner fields = fields.flatMap fun field =>
    visitsHeld owner field.2 := by
  induction fields with
  | nil => rfl
  | cons field rest ih =>
    obtain ⟨name, value⟩ := field
    rw [visitsBelow, ih, List.flatMap_cons]

theorem visitsEach_eq : visitsEach owner items = items.flatMap (visits (some owner)) := by
  induction items with
  | nil => rfl
  | cons item rest ih => rw [visitsEach, ih, List.flatMap_cons]

section Held

variable {owner fields : Fields} {parent : Option Fields} {value : Value}

theorem visits_of_fields (node : fields? value = some fields) :
    visits parent value = visitOf parent fields ++ visitsBelow fields fields := by
  unfold fields? at node
  split at node
  · cases node
    rw [visits]
  · cases node
    rw [visits]
  · cases node

theorem visitsHeld_of_fields (node : fields? value = some fields) :
    visitsHeld owner value =
      if (tagOf fields).isSome then visits (some owner) value else [] := by
  have same : visitsHeld owner value = if (tagOf fields).isSome then
      ⟨fields, some owner⟩ :: visitsBelow fields fields else [] := by
    unfold fields? at node
    split at node
    · cases node
      rw [visitsHeld]
    · cases node
      rw [visitsHeld]
    · cases node
  rw [same, visits_of_fields node, visitOf]
  split <;> rfl

theorem visitsHeld_of_items {items : List Value} (listed : value.items? = some items) :
    visitsHeld owner value = items.flatMap (visits (some owner)) := by
  rw [← visitsEach_eq]
  cases value with
  | list held =>
    cases listed
    rw [visitsHeld]
  | tuple held =>
    cases listed
    rw [visitsHeld]
  | _ => cases listed

theorem visits_of_other (other : fields? value = none) : visits parent value = [] := by
  unfold fields? at other
  split at other
  · cases other
  · cases other
  · rw [visits] <;> assumption

theorem visitsHeld_of_other (unlisted : value.items? = none) (other : fields? value = none) :
    visitsHeld owner value = [] := by
  cases value with
  | list items => cases unlisted
  | tuple items => cases unlisted
  | mapping fields => cases other
  | deferred inner =>
    cases inner with
    | mapping fields => cases other
    | _ => rfl
  | _ => rfl

end Held

end Node

end RailSpec
