import RailSpec.Declaration
import RailSpec.Proofs.Node.Lookup
import RailSpec.Proofs.Result
import RailSpec.Proofs.Value

/-!
Literals as JSON values. Whatever a tree holds, its literals and options are texts, numbers, truth
values, null, lists and mappings with distinct names: no tuples, and nothing that only gives
mappings on demand.
-/

namespace RailSpec

/-- A value as JSON has it. -/
inductive Value.IsJson : Value → Prop where
  | null : IsJson .null
  | bool (truth : Bool) : IsJson (.bool truth)
  | int (number : Int) : IsJson (.int number)
  | float (number : Float) : IsJson (.float number)
  | text (characters : String) : IsJson (.text characters)
  | list {items : List Value} (each : ∀ item ∈ items, IsJson item) : IsJson (.list items)
  | mapping {fields : Fields} (distinct : Fields.Distinct fields)
    (each : ∀ field ∈ fields, IsJson field.2) : IsJson (.mapping fields)

namespace Fields

variable {fields : Fields}

/-- Options with distinct names and JSON values. -/
structure IsJson (fields : Fields) : Prop where
  distinct : Distinct fields
  each : ∀ field ∈ fields, field.2.IsJson

theorem IsJson.nil : IsJson [] :=
  ⟨List.nodup_nil, fun field member => by cases member⟩

theorem IsJson.put (json : IsJson fields) (name : String) {value : Value} (new : value.IsJson) :
    IsJson (Fields.put fields name value) := by
  refine ⟨json.distinct.put name value, ?_⟩
  intro field member
  rcases mem_put member with rfl | old
  · exact new
  · exact json.each field old

theorem IsJson.merge (json : IsJson fields) {later : Fields}
    (others : ∀ field ∈ later, field.2.IsJson) : IsJson (Fields.merge fields later) := by
  induction later generalizing fields with
  | nil => exact json
  | cons field rest ih =>
    have next := json.put field.1 (others field (List.mem_cons_self ..))
    exact ih next fun other member => others other (List.mem_cons_of_mem _ member)

end Fields

namespace Literal

open Number (DigitFault)

variable {source : Source}

theorem isJson_of_primitive {value : Value} (primitive : value.isPrimitive = true) :
    value.IsJson := by
  cases value with
  | bool truth => exact .bool truth
  | int number => exact .int number
  | float number => exact .float number
  | text characters => exact .text characters
  | _ => cases primitive

theorem recover_isJson (fields : Fields) : ((source.recover fields).getD .null).IsJson := by
  rcases source.recover_cases fields with ⟨inner, same⟩ | ⟨truth, same⟩ | same
  · rw [same]
    exact .text inner
  · rw [same]
    exact .bool truth
  · rw [same]
    exact .null

/-- What a value resolves to, by itself and as a pair, is JSON. -/
def ResolvesJson (source : Source) (value : Value) : Prop :=
  (∀ literal, resolve source value = .ok literal → literal.IsJson) ∧
    ∀ name literal, resolvePair source value = .ok (some (name, literal)) → literal.IsJson

theorem resolveEach_isJson {items values : List Value}
    (each : ∀ item ∈ items, ResolvesJson source item)
    (found : resolveEach source items = .ok values) : ∀ value ∈ values, value.IsJson := by
  induction items generalizing values with
  | nil =>
    cases found
    intro value member
    cases member
  | cons item rest ih =>
    rw [resolveEach] at found
    obtain ⟨first, here, more⟩ := bind_ok found
    obtain ⟨others, later, last⟩ := bind_ok more
    cases last
    refine List.forall_mem_cons.mpr ⟨?_, ?_⟩
    · exact (each item (List.mem_cons_self ..)).1 first here
    · exact ih (fun other member => each other (List.mem_cons_of_mem _ member)) later

theorem resolveOptions_isJson {items : List Value} {options found : Fields}
    (each : ∀ item ∈ items, ResolvesJson source item) (json : options.IsJson)
    (done : resolveOptions source options items = .ok found) : found.IsJson := by
  induction items generalizing options with
  | nil =>
    cases done
    exact json
  | cons item rest ih =>
    have later := fun other member => each other (List.mem_cons_of_mem item member)
    rw [resolveOptions] at done
    obtain ⟨pair, here, more⟩ := bind_ok done
    cases pair with
    | none => exact ih later json more
    | some pair =>
      have new := (each item (List.mem_cons_self ..)).2 pair.1 pair.2 here
      exact ih later (json.put pair.1 new) more

private theorem resolvesJson_items {value : Value} {items : List Value}
    (same : value.items? = some items) (each : ∀ item ∈ items, ResolvesJson source item) :
    ResolvesJson source value := by
  constructor
  · intro literal found
    rw [resolve_items source same] at found
    obtain ⟨resolved, here, rfl⟩ := map_ok found
    exact .list (resolveEach_isJson each here)
  · intro name literal found
    rw [resolvePair_items source same] at found
    split at found
    · rename_i key held
      exact (each held (by simp)).1 literal (value_of_pairOf found)
    · cases found

/-- The fields of a node resolve to JSON, and so do the parts of their values. -/
private def FieldsResolveJson (source : Source) (fields : Fields) : Prop :=
  ∀ value ∈ fields.map Prod.snd, ResolvesJson source value ∧
    ∀ part ∈ value.parts, ResolvesJson source part

private theorem resolvesJson_mapping {fields : Fields} (each : FieldsResolveJson source fields) :
    ResolvesJson source (.mapping fields) := by
  constructor
  · intro literal found
    rw [resolve_mapping] at found
    split at found
    · rename_i held
      cases found
      exact isJson_of_primitive (Option.filter_eq_some_iff.mp held).2
    · obtain ⟨text, _, rfl⟩ := map_ok found
      exact .text text
    · rename_i elements
      obtain ⟨values, here, rfl⟩ := map_ok found
      exact .list (resolveEach_isJson (Fields.forall_items each elements) here)
    · rename_i pairs
      obtain ⟨options, here, rfl⟩ := map_ok found
      have json := resolveOptions_isJson (Fields.forall_items each pairs) .nil here
      exact .mapping json.distinct json.each
    · cases found
      exact recover_isJson fields
  · intro name literal found
    rw [resolvePair_mapping] at found
    have null : ∀ literal, resolve source .null = .ok literal → literal.IsJson := by
      rintro literal ⟨⟩
      exact .null
    have values := fun value member => (each value member).1.1
    exact Fields.forall_given values null "value" "val" literal (value_of_pairOf found)

private theorem resolvesJson (value : Value) : ResolvesJson source value := by
  induction value using Value.byLayers with
  | step value ih =>
    have bare (literal : Value) (json : literal.IsJson)
        (alone : resolve source value = .ok literal) (single : resolvePair source value = .ok none) :
        ResolvesJson source value := by
      constructor
      · intro other found
        cases alone.symm.trans found
        exact json
      · intro name other found
        cases single.symm.trans found
    cases value with
    | mapping fields => exact resolvesJson_mapping ih
    | list items => exact resolvesJson_items rfl fun item member => (ih item member).1
    | tuple items => exact resolvesJson_items rfl fun item member => (ih item member).1
    | deferred inner =>
      cases inner with
      | mapping fields =>
        have whole := (ih (.mapping fields) (List.mem_singleton.mpr rfl)).1
        rw [ResolvesJson, resolve_deferred, resolvePair_deferred]
        exact whole
      | _ => exact bare .null .null rfl rfl
    | null => exact bare _ .null rfl rfl
    | bool truth => exact bare _ (.bool truth) rfl rfl
    | int number => exact bare _ (.int number) rfl rfl
    | float number => exact bare _ (.float number) rfl rfl
    | text characters => exact bare _ (.text characters) rfl rfl
    | object attributes => exact bare .null .null rfl rfl

/-- Every literal is a JSON value. -/
theorem resolve_isJson {value literal : Value} (found : resolve source value = .ok literal) :
    literal.IsJson :=
  (resolvesJson value).1 literal found

theorem resolvePair_isJson {value literal : Value} {name : String}
    (found : resolvePair source value = .ok (some (name, literal))) : literal.IsJson :=
  (resolvesJson value).2 name literal found

end Literal

namespace Options

variable {source : Source}

theorem ofNode_isJson {node : Value} {options : Fields} (found : ofNode source node = .ok options) :
    options.IsJson := by
  unfold ofNode at found
  split at found
  · obtain ⟨pair, here, rfl⟩ := map_ok found
    cases pair with
    | none => exact .nil
    | some pair =>
      have json := Literal.resolvePair_isJson here
      exact Fields.IsJson.nil.put pair.1 json
  · split at found
    · exact Literal.resolveOptions_isJson (fun item _ => Literal.resolvesJson item) .nil found
    · cases found
      exact .nil

private theorem mergedInto_isJson {nodes : List Value} {before options : Fields}
    (json : before.IsJson) (found : mergedInto source before nodes = .ok options) :
    options.IsJson := by
  induction nodes generalizing before with
  | nil =>
    cases found
    exact json
  | cons node rest ih =>
    rw [mergedInto] at found
    obtain ⟨more, here, later⟩ := bind_ok found
    exact ih (json.merge (ofNode_isJson here).each) later

/-- The options of a declaration have distinct names and JSON values. -/
theorem merged_isJson {nodes : List Value} {options : Fields}
    (found : merged source nodes = .ok options) : options.IsJson :=
  mergedInto_isJson .nil found

end Options

end RailSpec
