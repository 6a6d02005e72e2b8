import RailSpec.Proofs.Node.Plain

/-!
Readers on plain forms. Literals, names, arguments, statements and options of a plain node are those
of the node that it comes from.
-/

namespace RailSpec

open Node

namespace Source

theorem offset?_plain : ∀ value, offset? (plain value) = offset? value :=
  read_plain (fun _ => rfl) (fun _ => rfl) (fun _ => rfl) fun _ => rfl

theorem offsetUnder_plain {name other : String} (here : isTagName name = false)
    (there : isTagName other = false) (fields : Fields) :
    offsetUnder (plainNode fields) name other = offsetUnder fields name other := by
  rw [offsetUnder, offsetUnder, value?_plainNode here, value?_plainNode there]
  cases Fields.value? fields name with
  | some value => exact offset?_plain value
  | none =>
    cases Fields.value? fields other with
    | some value => exact offset?_plain value
    | none => rfl

theorem locationOf_plain (fields : Fields) :
    locationOf (plainNode fields) = plainNode (locationOf fields) := by
  have found : ((firstOf (plainNode fields) ["location", "loc"]).bind fields?) =
      ((firstOf fields ["location", "loc"]).bind fields?).map plainNode := by
    rw [firstOf_plainNode rfl]
    cases firstOf fields ["location", "loc"] with
    | none => rfl
    | some value => exact fields?_plain value
  rw [locationOf, locationOf, found]
  cases (firstOf fields ["location", "loc"]).bind fields? with
  | none => rfl
  | some location =>
    cases location with
    | nil => rfl
    | cons field rest =>
      rw [Option.map_some]
      cases held : plainNode (field :: rest) with
      | nil => exact absurd (plainNode_nil_iff.mp held) (by simp)
      | cons first others => rfl

theorem recover_plain (source : Source) (fields : Fields) :
    source.recover (plainNode fields) = source.recover fields := by
  rw [recover, recover, spanOf, spanOf, locationOf_plain, offsetUnder_plain rfl rfl,
    offsetUnder_plain rfl rfl]

end Source

namespace Literal

variable (source : Source)

theorem heldValue?_plain (fields : Fields) : heldValue? (plainNode fields) = heldValue? fields := by
  rw [heldValue?, heldValue?, value?_plainNode rfl, filter_plain isPrimitive_plain]
  cases held : (Fields.value? fields "value").filter Value.isPrimitive with
  | none => rfl
  | some value => exact congrArg some (plain_of_primitive (Option.filter_eq_some_iff.mp held).2)

/-- A value that resolves as its plain form, by itself and as a pair. -/
def Resolves (value : Value) : Prop :=
  resolve source (plain value) = resolve source value ∧
    resolvePair source (plain value) = resolvePair source value

variable {source}

theorem resolveEach_of {items : List Value} (each : ∀ item ∈ items, Resolves source item) :
    resolveEach source (items.map plain) = resolveEach source items := by
  induction items with
  | nil => rfl
  | cons item rest ih =>
    rw [List.map_cons, resolveEach, resolveEach, (each item (by simp)).1,
      ih fun later member => each later (by simp [member])]

theorem resolveOptions_of {items : List Value} (each : ∀ item ∈ items, Resolves source item)
    (options : Fields) :
    resolveOptions source options (items.map plain) = resolveOptions source options items := by
  induction items generalizing options with
  | nil => rfl
  | cons item rest ih =>
    have later := ih fun later member => each later (by simp [member])
    rw [List.map_cons, resolveOptions, resolveOptions, (each item (by simp)).2]
    simp only [later]

private theorem resolves_items {value : Value} {items : List Value}
    (same : value.items? = some items) (each : ∀ item ∈ items, Resolves source item) :
    Resolves source value := by
  have listed : (plain value).items? = some (items.map plain) := by
    rw [items?_plain, same]
    rfl
  constructor
  · rw [resolve_items source listed, resolve_items source same, resolveEach_of each]
  · rw [resolvePair_items source listed, resolvePair_items source same]
    rcases items with _ | ⟨key, _ | ⟨held, _ | ⟨third, rest⟩⟩⟩
    · rfl
    · rfl
    · simp only [List.map_cons, List.map_nil, (each key (by simp)).1, (each held (by simp)).1]
    · rfl

/-- The fields of a node resolve, and so do the parts of their values. -/
private def FieldsResolve (source : Source) (fields : Fields) : Prop :=
  ∀ value ∈ fields.map Prod.snd, Resolves source value ∧ ∀ part ∈ value.parts, Resolves source part

private theorem resolveField_plain {fields : Fields} (each : FieldsResolve source fields)
    {name : String} (other : isTagName name = false) :
    resolveField source name (plainNode fields) = resolveField source name fields := by
  rw [resolveField_eq, resolveField_eq, given?_plainNode other]
  cases found : fields.given? name with
  | none => rfl
  | some value =>
    have held := Fields.value?_of_given? found
    exact congrArg some (each value (Fields.held_of_value? held)).1.1

private theorem resolves_mapping {fields : Fields} (each : FieldsResolve source fields) :
    Resolves source (.mapping fields) := by
  constructor
  · rw [plain_mapping, resolve_mapping, resolve_mapping, heldValue?_plain, Source.recover_plain,
      items?_plainNode rfl, items?_plainNode rfl, items?_plainNode rfl]
    cases heldValue? fields with
    | some value => rfl
    | none =>
      cases parts : fields.items? "parts" with
      | some items => simp only [Option.map_some, resolveEach_of (Fields.forall_items each parts)]
      | none =>
        cases elements : fields.items? "elements" with
        | some items =>
          simp only [Option.map_some, Option.map_none, resolveEach_of (Fields.forall_items each elements)]
        | none =>
          cases pairs : fields.items? "pairs" with
          | some items =>
            simp only [Option.map_some, Option.map_none,
              resolveOptions_of (Fields.forall_items each pairs)]
          | none => rfl
  · rw [plain_mapping, resolvePair, resolvePair, resolveField_plain each rfl,
      resolveField_plain each rfl, resolveField_plain each rfl, resolveField_plain each rfl]

private theorem resolves (value : Value) : Resolves source value := by
  induction value using Value.byLayers with
  | step value ih =>
    cases value with
    | mapping fields => exact resolves_mapping ih
    | list items => exact resolves_items rfl fun item member => (ih item member).1
    | tuple items => exact resolves_items rfl fun item member => (ih item member).1
    | deferred inner =>
      cases inner with
      | mapping fields =>
        by_cases filled : fields = []
        · subst filled
          exact ⟨rfl, rfl⟩
        · have whole := (ih (.mapping fields) (List.mem_singleton.mpr rfl)).1
          rw [Resolves, plain_mapping] at whole
          rw [Resolves, plain_deferred filled, resolve_deferred, resolvePair_deferred]
          exact whole
      | _ => exact ⟨rfl, rfl⟩
    | _ => exact ⟨rfl, rfl⟩

theorem resolve_plain (value : Value) : resolve source (plain value) = resolve source value :=
  (resolves value).1

theorem resolvePair_plain (value : Value) :
    resolvePair source (plain value) = resolvePair source value :=
  (resolves value).2

theorem resolveEach_plain (items : List Value) :
    resolveEach source (items.map plain) = resolveEach source items :=
  resolveEach_of fun item _ => resolves item

theorem resolveOptions_plain (options : Fields) (items : List Value) :
    resolveOptions source options (items.map plain) = resolveOptions source options items :=
  resolveOptions_of (fun item _ => resolves item) options

private theorem givenName?_eq (fields : Fields) :
    givenName? fields = (nameCandidates fields).findSome? fun candidate => candidate.bind textOf? := by
  rw [givenName?]
  congr 1
  funext candidate
  cases candidate with
  | none => rfl
  | some value => cases value <;> rfl

private theorem nameCandidates_plain (fields : Fields) :
    nameCandidates (plainNode fields) = (nameCandidates fields).map (Option.map plain) := by
  simp only [nameCandidates, List.map_cons, List.map_nil]
  rw [value?_plainNode rfl, value?_plainNode rfl, value?_plainNode rfl,
    bind_plain (field?_plain rfl), bind_plain (field?_plain rfl), bind_plain (field?_plain rfl)]

theorem givenName?_plain (fields : Fields) : givenName? (plainNode fields) = givenName? fields := by
  rw [givenName?_eq, givenName?_eq, nameCandidates_plain, List.findSome?_map]
  congr 1
  funext candidate
  cases candidate with
  | none => rfl
  | some value => exact textOf?_plain value

private theorem identifier_of_not_text {value : Value} (other : textOf? value = none) :
    identifier source value = match fields? value with
      | none => .ok none
      | some fields =>
        match givenName? fields with
        | some name => .ok (some name)
        | none => (resolve source (.mapping fields)).map Value.nonEmptyText? := by
  cases value with
  | text characters => cases other
  | _ => rfl

theorem identifier_plain (value : Value) :
    identifier source (plain value) = identifier source value := by
  cases spelled : textOf? value with
  | some name =>
    cases value <;> simp only [textOf?, reduceCtorEq] at spelled
    rfl
  | none =>
    rw [identifier_of_not_text spelled,
      identifier_of_not_text ((textOf?_plain value).trans spelled), fields?_plain]
    cases fields? value with
    | none => rfl
    | some fields =>
      rw [Option.map_some]
      simp only [givenName?_plain, ← plain_mapping, resolve_plain]

theorem arrayTexts_plain (node : Value) : arrayTexts source (plain node) = arrayTexts source node := by
  rw [arrayTexts, arrayTexts, listField?_plain rfl]
  cases listField? node ["elements", "args", "arguments", "items", "contents", "parts"] with
  | none => rfl
  | some items => simp only [Option.map_some, resolveEach_plain]

end Literal

namespace Call

variable {source : Source}

theorem name_plain (call : Value) : name source (plain call) = name source call := by
  rw [name, name, field?_plain rfl]
  cases field? call ["name", "method", "identifier"] with
  | none => rfl
  | some named => exact Literal.identifier_plain named

private theorem or_plain (first second : Option (List Value)) :
    (first.map (List.map plain)).or (second.map (List.map plain)) =
      (first.or second).map (List.map plain) := by
  cases first <;> rfl

private theorem getD_plain (found : Option (List Value)) :
    (found.map (List.map plain)).getD [] = (found.getD []).map plain := by
  cases found <;> rfl

theorem arguments_plain (call : Value) : arguments (plain call) = (arguments call).map plain := by
  rw [arguments, arguments, fields?_plain]
  cases fields? call with
  | none => rfl
  | some fields =>
    simp only [Option.map_some]
    rw [value?_plainNode rfl, value?_plainNode rfl, bind_plain items?_plain,
      bind_plain (listField?_plain rfl), bind_plain items?_plain, or_plain, or_plain, getD_plain]

theorem statements_plain (block : Value) : statements (plain block) = (statements block).map plain := by
  rw [statements, statements, fields?_plain]
  cases fields? block with
  | none => rfl
  | some fields =>
    simp only [Option.map_some]
    rw [value?_plainNode rfl, value?_plainNode rfl, bind_plain items?_plain,
      bind_plain (listField?_plain rfl), bind_plain (listField?_plain rfl),
      bind_plain (listField?_plain rfl), or_plain, or_plain, or_plain, getD_plain]

end Call

namespace Options

variable {source : Source}

theorem firstList?_plain {names : List String} (others : names.all fun name => !isTagName name)
    (fields : Fields) :
    firstList? (plainNode fields) names = (firstList? fields names).map (List.map plain) := by
  induction names with
  | nil => rfl
  | cons name rest ih =>
    rw [List.all_cons, Bool.and_eq_true] at others
    rw [firstList?, firstList?, ih others.2, value?_plainNode (by simpa using others.1),
      bind_plain items?_plain]
    cases (Fields.value? fields name).bind Value.items? <;> rfl

theorem ofNode_plain (node : Value) : ofNode source (plain node) = ofNode source node := by
  rw [ofNode, ofNode, isPair, isPair, tag?_plain, Literal.resolvePair_plain, fields?_plain]
  split
  · rfl
  · cases fields? node with
    | none => rfl
    | some fields =>
      simp only [Option.map_some, Option.bind_some]
      rw [firstList?_plain rfl]
      cases firstList? fields ["elements", "assocs", "arguments", "pairs"] with
      | none => rfl
      | some pairs => exact Literal.resolveOptions_plain [] pairs

theorem merged_plain (nodes : List Value) : merged source (nodes.map plain) = merged source nodes := by
  have into (options : Fields) :
      mergedInto source options (nodes.map plain) = mergedInto source options nodes := by
    induction nodes generalizing options with
    | nil => rfl
    | cons node rest ih =>
      rw [List.map_cons, mergedInto, mergedInto, ofNode_plain]
      simp only [ih]
  exact into []

end Options

end RailSpec
