import RailSpec.Proofs.Node.HandedDown
import RailSpec.Proofs.Result

/-!
The source text as a last resort. The places at which a tree can be read from its source are the
offsets of the nodes in it without structured data. Sources that say the same at all those places
give the same names, literals and options, however else they differ.
-/

namespace RailSpec

/-- Whether a node holds no literal of its own, no parts, no elements and no pairs. -/
def Literal.isBare (fields : Fields) : Bool :=
  (heldValue? fields).isNone && ["parts", "elements", "pairs"].all fun name =>
    (fields.items? name).isNone

namespace Source

/-- The offsets of a node that is left to its source text. -/
def bareSpan (fields : Fields) : List (Nat × Nat) :=
  if Literal.isBare fields then (spanOf fields).toList else []

mutual

/-- The offsets of all nodes in a value that are left to their source text. -/
def bareSpans : Value → List (Nat × Nat)
  | .mapping fields => bareSpan fields ++ bareSpansBelow fields
  | .deferred inner => bareSpans inner
  | .list items | .tuple items => bareSpansEach items
  | _ => []

/-- The same without the node that the value itself gives. -/
def bareSpansInside : Value → List (Nat × Nat)
  | .mapping fields => bareSpansBelow fields
  | .deferred inner => bareSpansInside inner
  | .list items | .tuple items => bareSpansEach items
  | _ => []

/-- The same for what a node holds: a location is no node of its own. -/
def bareSpansBelow : List (String × Value) → List (Nat × Nat)
  | [] => []
  | (name, value) :: rest =>
    (if Node.isLocationName name then bareSpansInside value else bareSpans value)
      ++ bareSpansBelow rest

def bareSpansEach : List Value → List (Nat × Nat)
  | [] => []
  | item :: rest => bareSpans item ++ bareSpansEach rest

end

/-- Two sources say the same at every one of some places. -/
def AgreeAt (first second : Source) (spans : List (Nat × Nat)) : Prop :=
  ∀ span ∈ spans, first.slice span.1 span.2 = second.slice span.1 span.2

instance (first second : Source) (spans : List (Nat × Nat)) :
    Decidable (AgreeAt first second spans) :=
  inferInstanceAs (Decidable (∀ span ∈ spans, _))

section Spans

variable {value item : Value} {fields : Fields} {items : List Value}

theorem bareSpans_inside (value : Value) : bareSpansInside value ⊆ bareSpans value := by
  induction value using Value.byParts with
  | step value ih =>
    cases value with
    | mapping fields =>
      rw [bareSpansInside, bareSpans]
      exact List.subset_append_right ..
    | deferred inner =>
      rw [bareSpansInside, bareSpans]
      exact ih inner (List.mem_singleton.mpr rfl)
    | list items => rw [bareSpansInside, bareSpans]; exact List.Subset.refl _
    | tuple items => rw [bareSpansInside, bareSpans]; exact List.Subset.refl _
    | _ => exact List.nil_subset _

theorem bareSpansEach_item (member : item ∈ items) : bareSpans item ⊆ bareSpansEach items := by
  induction member with
  | head rest => exact List.subset_append_left ..
  | tail first later ih => exact List.subset_append_of_subset_right _ ih

theorem bareSpans_items (found : value.items? = some items) :
    bareSpansInside value = bareSpansEach items := by
  cases value with
  | list held => cases found; rw [bareSpansInside]
  | tuple held => cases found; rw [bareSpansInside]
  | _ => cases found

theorem bareSpans_fields (found : Node.fields? value = some fields) :
    bareSpans value = bareSpans (.mapping fields) ∧
      bareSpansInside value = bareSpansBelow fields := by
  cases value with
  | mapping held =>
    cases found
    exact ⟨rfl, by rw [bareSpansInside]⟩
  | deferred inner =>
    cases inner with
    | mapping held =>
      cases found
      exact ⟨by rw [bareSpans]; rfl, by rw [bareSpansInside, bareSpansInside]⟩
    | _ => cases found
  | _ => cases found

theorem bareSpansBelow_field {field : String × Value} (member : field ∈ fields) :
    bareSpansInside field.2 ⊆ bareSpansBelow fields ∧
      (Node.isLocationName field.1 = false → bareSpans field.2 ⊆ bareSpansBelow fields) := by
  induction member with
  | head rest =>
    rw [bareSpansBelow]
    split
    · rename_i location
      exact ⟨List.subset_append_left .., fun other => by simp [location] at other⟩
    · exact ⟨List.subset_append_of_subset_left _ (bareSpans_inside _), fun _ =>
        List.subset_append_left ..⟩
  | tail first later ih =>
    rw [bareSpansBelow]
    exact ⟨List.subset_append_of_subset_right _ ih.1, fun other =>
      List.subset_append_of_subset_right _ (ih.2 other)⟩

end Spans

section Agree

variable {first second : Source} {fields : Fields} {spans more : List (Nat × Nat)}

theorem AgreeAt.mono (agree : AgreeAt first second spans) (fewer : more ⊆ spans) :
    AgreeAt first second more :=
  fun span member => agree span (fewer member)

/-- Two sources agree on all that is left to them in what a value gives. -/
abbrev AgreeInside (first second : Source) (value : Value) : Prop :=
  Node.Opens (fun fields => AgreeAt first second (bareSpansBelow fields))
    (fun value => AgreeAt first second (bareSpans value)) value

theorem agreeInside {value : Value} (agree : AgreeAt first second (bareSpansInside value)) :
    AgreeInside first second value := by
  constructor
  · intro fields found
    rwa [(bareSpans_fields found).2] at agree
  · intro items found item member
    rw [bareSpans_items found] at agree
    exact agree.mono (bareSpansEach_item member)

/-- Agreement on what is left to the source text is handed down to all that a node holds. -/
theorem agree_handedDown (first second : Source) :
    Node.HandedDown (fun fields => AgreeAt first second (bareSpansBelow fields))
      (fun value => AgreeAt first second (bareSpans value)) where
  opens agree := agreeInside (agree.mono (bareSpans_inside _))
  held agree member := agreeInside (agree.mono (bareSpansBelow_field member).1)
  field agree member other := agree.mono ((bareSpansBelow_field member).2 other)

/-- A node without structured data stands for the same where two sources agree on it. -/
theorem recover_agree (bare : Literal.isBare fields)
    (agree : AgreeAt first second (bareSpans (.mapping fields))) :
    first.recover fields = second.recover fields := by
  unfold recover
  cases found : spanOf fields with
  | none => rfl
  | some span =>
    have own : span ∈ bareSpans (.mapping fields) := by
      rw [bareSpans, bareSpan, if_pos bare, found]
      exact List.mem_append_left _ (List.mem_singleton.mpr rfl)
    rw [Option.map_some, Option.map_some, agree span own]

end Agree

end Source

open Source (AgreeAt AgreeInside bareSpans bareSpansBelow agree_handedDown)

namespace Literal

variable {first second : Source} {value : Value} {fields : Fields} {items : List Value}

/-- A value stands for the same in two sources, by itself and as a pair. -/
structure SameResolved (first second : Source) (value : Value) : Prop where
  literal : resolve first value = resolve second value
  pair : resolvePair first value = resolvePair second value

theorem resolveEach_same (each : ∀ item ∈ items, SameResolved first second item) :
    resolveEach first items = resolveEach second items := by
  induction items with
  | nil => rfl
  | cons item rest ih =>
    obtain ⟨here, later⟩ := List.forall_mem_cons.mp each
    rw [resolveEach, resolveEach, here.literal, ih later]

theorem resolveOptions_same (each : ∀ item ∈ items, SameResolved first second item)
    (options : Fields) : resolveOptions first options items = resolveOptions second options items := by
  induction items generalizing options with
  | nil => rfl
  | cons item rest ih =>
    obtain ⟨here, later⟩ := List.forall_mem_cons.mp each
    rw [resolveOptions, resolveOptions, here.pair]
    simp only [ih later]

theorem sameResolved_items (same : value.items? = some items)
    (each : ∀ item ∈ items, SameResolved first second item) : SameResolved first second value := by
  constructor
  · rw [resolve_items first same, resolve_items second same, resolveEach_same each]
  · rw [resolvePair_items first same, resolvePair_items second same]
    split
    · rename_i key held
      rw [(each key (by simp)).literal, (each held (by simp)).literal]
    · rfl

/-- A node stands for the same if all that is agreed on in it does. -/
theorem sameResolved_mapping (agree : AgreeAt first second (bareSpans (.mapping fields)))
    (each : ∀ part ∈ (Value.mapping fields).parts,
      (AgreeAt first second (bareSpans part) → SameResolved first second part) ∧
      ∀ inner ∈ part.parts,
        AgreeAt first second (bareSpans inner) → SameResolved first second inner) :
    SameResolved first second (.mapping fields) := by
  have down := agree_handedDown first second
  have whole := (down.opens agree).fields rfl
  have listed {name : String} {items : List Value} (found : fields.items? name = some items) :
      ∀ item ∈ items, SameResolved first second item := fun item member =>
    Fields.forall_items each found item member (down.heldItems whole name items found item member)
  have single {name : String} (other : Node.isLocationName name = false) :
      resolveField first name fields = resolveField second name fields := by
    rw [resolveField_eq, resolveField_eq]
    cases found : fields.given? name with
    | none => rfl
    | some value =>
      have held := Fields.value?_of_given? found
      have same := (each value (Fields.held_of_value? held)).1 (down.value? whole other held)
      exact congrArg some same.literal
  constructor
  · rw [resolve_mapping, resolve_mapping]
    split
    · rfl
    · rename_i parts
      rw [resolveEach_same (listed parts)]
    · rename_i elements
      rw [resolveEach_same (listed elements)]
    · rename_i pairs
      rw [resolveOptions_same (listed pairs)]
    · rename_i held parts elements pairs
      have bare : isBare fields := by simp [isBare, held, parts, elements, pairs]
      rw [Source.recover_agree bare agree]
  · rw [resolvePair, resolvePair, single rfl, single rfl, single rfl, single rfl]

/-- A value stands for the same in two sources that agree on what is left to them. -/
theorem sameResolved (agree : AgreeAt first second (bareSpans value)) :
    SameResolved first second value := by
  have down := agree_handedDown first second
  -- two layers: the items of a list lie in the value of a node's field
  induction value using Value.byLayers with
  | step value ih =>
    have listed {items : List Value} (found : value.items? = some items) :
        SameResolved first second value := by
      refine sameResolved_items found fun item member => ?_
      have part : item ∈ value.parts := Value.items?_parts found ▸ member
      exact (ih item part).1 ((down.opens agree).items found item member)
    cases value with
    | list items => exact listed rfl
    | tuple items => exact listed rfl
    | mapping fields => exact sameResolved_mapping agree ih
    | deferred inner =>
      cases inner with
      | mapping fields =>
        have held := (ih (.mapping fields) (List.mem_singleton.mpr rfl)).1 agree
        exact ⟨by rw [resolve_deferred, resolve_deferred, held.literal],
          by rw [resolvePair_deferred, resolvePair_deferred, held.pair]⟩
      | _ => exact ⟨rfl, rfl⟩
    | _ => exact ⟨rfl, rfl⟩

theorem identifier_same (agree : AgreeAt first second (bareSpans value)) :
    identifier first value = identifier second value := by
  unfold identifier
  split
  · rfl
  · split
    · rfl
    · rename_i fields found
      rw [(Source.bareSpans_fields found).1] at agree
      rw [(sameResolved agree).literal]

theorem arrayTexts_same (agree : AgreeAt first second (bareSpans value)) :
    arrayTexts first value = arrayTexts second value := by
  have down := agree_handedDown first second
  unfold arrayTexts
  split
  · rename_i items found
    have each := down.listField? (down.opens agree) rfl items found
    rw [resolveEach_same fun item member => sameResolved (each item member)]
  · rfl

end Literal

namespace Call

variable {first second : Source} {call : Value}

theorem name_same (opens : AgreeInside first second call) : name first call = name second call := by
  unfold name
  split
  · rename_i named found
    obtain ⟨fields, here, given⟩ := Option.bind_eq_some_iff.mp found
    exact Literal.identifier_same ((agree_handedDown first second).firstOf (opens.fields here) rfl given)
  · rfl

end Call

namespace Options

variable {first second : Source}

theorem ofNode_same {node : Value} (agree : AgreeAt first second (bareSpans node)) :
    ofNode first node = ofNode second node := by
  have down := agree_handedDown first second
  unfold ofNode
  split
  · rw [(Literal.sameResolved agree).pair]
  · split
    · rename_i pairs found
      obtain ⟨fields, here, inside⟩ := Option.bind_eq_some_iff.mp found
      have each := down.firstList? ((down.opens agree).fields here) _ pairs inside
      exact Literal.resolveOptions_same (fun item member => Literal.sameResolved (each item member)) []
    · rfl

theorem mergedInto_same {nodes : List Value}
    (agree : ∀ node ∈ nodes, AgreeAt first second (bareSpans node)) (options : Fields) :
    mergedInto first options nodes = mergedInto second options nodes := by
  induction nodes generalizing options with
  | nil => rfl
  | cons node rest ih =>
    obtain ⟨here, later⟩ := List.forall_mem_cons.mp agree
    rw [mergedInto, mergedInto, ofNode_same here]
    simp only [ih later]

end Options

end RailSpec
