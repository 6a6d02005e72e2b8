import RailSpec.Proofs.Node.Lookup
import RailSpec.Proofs.Node.Position
import RailSpec.Proofs.Value

/-!
Plain forms of nodes. A value that gives a mapping on demand is put down as that mapping, a tuple as
a list, and the only tag of a node stands first and under `kind`. Looking a plain node up, or
walking it, is looking up or walking the node that it comes from.
-/

namespace RailSpec.Node

/-- The names that a tag may stand under. -/
def isTagName (name : String) : Bool :=
  name = "type" || name = "kind"

/-- Fields with their tag in front, if they have one and nothing else under the names of tags. -/
def settled (fields : Fields) : Fields :=
  match fields.filter fun field => isTagName field.1 with
  | [(_, .text tag)] => ("kind", .text tag) :: fields.filter fun field => !isTagName field.1
  | _ => fields

mutual

/-- The plain form of a value. -/
def plain : Value → Value
  | .list items | .tuple items => .list (plainEach items)
  | .mapping fields => .mapping (settled (plainFields fields))
  | .deferred (.mapping fields) =>
    if fields.isEmpty then .deferred (.mapping []) else .mapping (settled (plainFields fields))
  | value => value

def plainEach : List Value → List Value
  | [] => []
  | item :: rest => plain item :: plainEach rest

def plainFields : List (String × Value) → List (String × Value)
  | [] => []
  | (name, value) :: rest => (name, plain value) :: plainFields rest

end

/-- The fields of the plain form of a node. -/
def plainNode (fields : Fields) : Fields :=
  settled (plainFields fields)

variable (fields : Fields)

theorem plainEach_eq (items : List Value) : plainEach items = items.map plain := by
  induction items with
  | nil => rfl
  | cons item rest ih => rw [plainEach, ih, List.map_cons]

theorem plainFields_eq :
    plainFields fields = fields.map fun field => (field.1, plain field.2) := by
  induction fields with
  | nil => rfl
  | cons field rest ih =>
    obtain ⟨name, value⟩ := field
    rw [plainFields, ih, List.map_cons]

theorem plain_mapping : plain (.mapping fields) = .mapping (plainNode fields) := by
  rw [plain, plainNode]

theorem plain_list (items : List Value) : plain (.list items) = .list (items.map plain) := by
  rw [plain, plainEach_eq]

theorem plain_tuple (items : List Value) : plain (.tuple items) = .list (items.map plain) := by
  rw [plain, plainEach_eq]

theorem plain_deferred {fields : Fields} (filled : fields ≠ []) :
    plain (.deferred (.mapping fields)) = .mapping (plainNode fields) := by
  rw [plain, if_neg (by simpa using filled), plainNode]

theorem plain_of_primitive {value : Value} (primitive : value.isPrimitive = true) :
    plain value = value := by
  cases value <;> first | rfl | simp [Value.isPrimitive] at primitive

section Settled

private theorem settled_cases :
    settled fields = fields ∨ ∃ name tag,
      (fields.filter fun field => isTagName field.1) = [(name, .text tag)] ∧
      settled fields = ("kind", .text tag) :: fields.filter fun field => !isTagName field.1 := by
  unfold settled
  split
  · rename_i name tag only
    exact .inr ⟨name, tag, only, rfl⟩
  · exact .inl rfl

theorem value?_settled {name : String} (other : isTagName name = false) :
    Fields.value? (settled fields) name = Fields.value? fields name := by
  rcases settled_cases fields with same | ⟨key, tag, only, moved⟩
  · rw [same]
  · have apart : "kind" ≠ name := by
      rintro rfl
      simp [isTagName] at other
    rw [moved, Fields.value?_cons, if_neg apart]
    exact Fields.value?_filter (fun name => !isTagName name) (by simp [other])

theorem settled_nil_iff : settled fields = [] ↔ fields = [] := by
  rcases settled_cases fields with same | ⟨key, tag, only, moved⟩
  · rw [same]
  · constructor
    · intro empty
      simp [moved] at empty
    · intro empty
      simp [empty] at only

private theorem text?_of_tags (name : String) (tagName : isTagName name = true) :
    text? (fields.filter fun field => isTagName field.1) name = text? fields name := by
  rw [text?, text?, Fields.value?_filter isTagName tagName]

theorem tagOf_settled : tagOf (settled fields) = tagOf fields := by
  rcases settled_cases fields with same | ⟨key, tag, only, moved⟩
  · rw [same]
  · have member : (key, Value.text tag) ∈ fields.filter fun field => isTagName field.1 := by
      simp [only]
    have tagName : key = "type" ∨ key = "kind" := by
      simpa [isTagName] using (List.mem_filter.mp member).2
    have untagged : Fields.value? (fields.filter fun field => !isTagName field.1) "type" = none := by
      refine Fields.value?_of_not_mem ?_
      simp [Fields.names, isTagName]
    have before : tagOf fields = some tag := by
      rw [tagOf, ← text?_of_tags fields "type" rfl, ← text?_of_tags fields "kind" rfl, only]
      rcases tagName with rfl | rfl <;> simp [text?, Fields.value?_cons]
    rw [before, moved]
    simp [tagOf, text?, Fields.value?_cons, untagged]

/-- Fields that hold nothing to walk through may be left out. -/
private theorem flatMap_filter {α β : Type} (keep : α → Bool) (below : α → List β) (items : List α)
    (empty : ∀ item ∈ items, keep item = false → below item = []) :
    (items.filter keep).flatMap below = items.flatMap below := by
  induction items with
  | nil => rfl
  | cons item rest ih =>
    have later := ih fun item member => empty item (by simp [member])
    rw [List.filter_cons, List.flatMap_cons]
    cases kept : keep item with
    | true => rw [if_pos rfl, List.flatMap_cons, later]
    | false => rw [if_neg (by simp), later, empty item (by simp) kept, List.nil_append]

theorem spotsBelow_settled (owner : Fields) :
    spotsBelow owner (settled fields) = spotsBelow owner fields := by
  rcases settled_cases fields with same | ⟨key, tag, only, moved⟩
  · rw [same]
  · rw [moved, spotsBelow, spotsHeld_text, List.nil_append, spotsBelow_eq, spotsBelow_eq]
    refine flatMap_filter _ _ _ fun field member dropped => ?_
    have tagged : field ∈ fields.filter fun field => isTagName field.1 :=
      List.mem_filter.mpr ⟨member, by simpa using dropped⟩
    rw [only, List.mem_singleton] at tagged
    rw [tagged, spotsHeld_text]

end Settled

section LookUp

variable {fields} {name : String}

theorem value?_plainNode (other : isTagName name = false) :
    Fields.value? (plainNode fields) name = (Fields.value? fields name).map plain := by
  rw [plainNode, value?_settled _ other, plainFields_eq, Fields.value?_map]

theorem plainNode_nil_iff : plainNode fields = [] ↔ fields = [] := by
  rw [plainNode, settled_nil_iff, plainFields_eq, List.map_eq_nil_iff]

/-- What tells neither the containers nor the ways of giving a node apart, reads a plain form as what
it comes from. -/
theorem read_plain {α : Type} {read : Value → α} {other : α}
    (mapping : ∀ fields, read (.mapping fields) = other) (list : ∀ items, read (.list items) = other)
    (tuple : ∀ items, read (.tuple items) = other) (deferred : ∀ inner, read (.deferred inner) = other)
    (value : Value) : read (plain value) = read value := by
  cases value with
  | mapping fields => rw [plain_mapping, mapping, mapping]
  | list items => rw [plain_list, list, list]
  | tuple items => rw [plain_tuple, list, tuple]
  | deferred inner =>
    rw [deferred]
    cases inner with
    | mapping fields =>
      rw [plain]
      split
      · exact deferred _
      · exact mapping _
    | _ => exact deferred _
  | _ => rfl

/-- The text that a value is. -/
def textOf? : Value → Option String
  | .text characters => some characters
  | _ => none

theorem textOf?_plain : ∀ value, textOf? (plain value) = textOf? value :=
  read_plain (fun _ => rfl) (fun _ => rfl) (fun _ => rfl) fun _ => rfl

theorem text?_eq : text? fields name = (Fields.value? fields name).bind textOf? := by
  rw [text?]
  cases Fields.value? fields name with
  | none => rfl
  | some value => cases value <;> rfl

private theorem text?_plainFields : text? (plainFields fields) name = text? fields name := by
  rw [text?_eq, text?_eq, plainFields_eq, Fields.value?_map]
  cases Fields.value? fields name with
  | none => rfl
  | some value => exact textOf?_plain value

theorem tagOf_plainNode : tagOf (plainNode fields) = tagOf fields := by
  rw [plainNode, tagOf_settled, tagOf, text?_plainFields, text?_plainFields, ← tagOf]

theorem fields?_plain (value : Value) : fields? (plain value) = (fields? value).map plainNode := by
  cases value with
  | mapping fields => rw [plain_mapping]; rfl
  | deferred inner =>
    cases inner with
    | mapping fields =>
      by_cases filled : fields = []
      · subst filled
        rfl
      · rw [plain_deferred filled]
        rfl
    | _ => rfl
  | _ => rfl

theorem items?_plain (value : Value) :
    (plain value).items? = value.items?.map (List.map plain) := by
  cases value with
  | list items => rw [plain_list]; rfl
  | tuple items => rw [plain_tuple]; rfl
  | deferred inner =>
    cases inner with
    | mapping fields => rw [plain]; split <;> rfl
    | _ => rfl
  | _ => rfl

theorem isNull_plain : ∀ value, (plain value).isNull = value.isNull :=
  read_plain (fun _ => rfl) (fun _ => rfl) (fun _ => rfl) fun _ => rfl

theorem isPrimitive_plain : ∀ value, (plain value).isPrimitive = value.isPrimitive :=
  read_plain (fun _ => rfl) (fun _ => rfl) (fun _ => rfl) fun _ => rfl

theorem filter_plain {test : Value → Bool} (same : ∀ value, test (plain value) = test value)
    (held : Option Value) : (held.map plain).filter test = (held.filter test).map plain := by
  cases held with
  | none => rfl
  | some value =>
    rw [Option.map_some, Option.filter_some, Option.filter_some, same]
    split <;> rfl

theorem bind_plain {α : Type} {read : Value → Option α} {change : α → α}
    (same : ∀ value, read (plain value) = (read value).map change) (held : Option Value) :
    (held.map plain).bind read = (held.bind read).map change := by
  cases held with
  | none => rfl
  | some value => exact same value

theorem items?_plainNode (other : isTagName name = false) :
    (plainNode fields).items? name = (fields.items? name).map (List.map plain) := by
  rw [Fields.items?, Fields.items?, value?_plainNode other, bind_plain items?_plain]

theorem given?_plainNode (other : isTagName name = false) :
    (plainNode fields).given? name = (fields.given? name).map plain := by
  rw [Fields.given?, Fields.given?, value?_plainNode other]
  exact filter_plain (fun value => by rw [isNull_plain]) _

theorem firstOf_eq (names : List String) :
    firstOf fields names = names.findSome? fields.given? := by
  induction names with
  | nil => rfl
  | cons name rest ih =>
    rw [firstOf, List.findSome?_cons, Fields.given?, ih]
    cases Fields.value? fields name with
    | none => rfl
    | some value => cases value <;> rfl

theorem firstOf_plainNode {names : List String} (others : names.all fun name => !isTagName name) :
    firstOf (plainNode fields) names = (firstOf fields names).map plain := by
  rw [firstOf_eq, firstOf_eq]
  induction names with
  | nil => rfl
  | cons name rest ih =>
    rw [List.all_cons, Bool.and_eq_true] at others
    rw [List.findSome?_cons, List.findSome?_cons, given?_plainNode (by simpa using others.1),
      ih others.2]
    cases fields.given? name <;> rfl

theorem field?_plain {names : List String} (others : names.all fun name => !isTagName name)
    (node : Value) : field? (plain node) names = (field? node names).map plain := by
  rw [field?, field?, fields?_plain]
  cases fields? node with
  | none => rfl
  | some fields => exact firstOf_plainNode others

theorem listField?_plain {names : List String} (others : names.all fun name => !isTagName name)
    (node : Value) : listField? (plain node) names = (listField? node names).map (List.map plain) := by
  rw [listField?, listField?, field?_plain others, bind_plain items?_plain]

theorem tag?_plain (value : Value) : tag? (plain value) = tag? value := by
  rw [tag?, tag?, fields?_plain]
  cases fields? value with
  | none => rfl
  | some fields => exact tagOf_plainNode

end LookUp

section Walk

/-- A visit of the plain form of the visited node. -/
def Visit.plain (visit : Visit) : Visit :=
  ⟨plainNode visit.fields, visit.parent.map plainNode⟩

def Spot.plain (spot : Spot) : Spot :=
  { spot with visit := spot.visit.plain }

private theorem map_under (step : Step) (found : List Spot) :
    (found.map Spot.plain).map (Spot.under step) = (found.map (Spot.under step)).map Spot.plain := by
  rw [List.map_map, List.map_map]
  rfl

private theorem visitOf_plain (parent : Option Fields) :
    (visitOf (parent.map plainNode) (plainNode fields)).map (Spot.mk []) =
      ((visitOf parent fields).map (Spot.mk [])).map Spot.plain := by
  rw [visitOf, visitOf, tagOf_plainNode]
  split <;> rfl

mutual

/-- The walk through a plain form stops at the same positions, in the same order. -/
theorem spots_plain (parent : Option Fields) : (value : Value) →
    spots (parent.map plainNode) (plain value) = (spots parent value).map Spot.plain
  | .mapping fields => by
    rw [plain_mapping, spots, spots, List.map_append, visitOf_plain, plainNode, spotsBelow_settled,
      ← plainNode, spotsBelow_plain fields fields]
  | .deferred (.mapping fields) => by
    by_cases filled : fields = []
    · subst filled
      rfl
    · rw [plain_deferred filled, spots, spots, List.map_append, visitOf_plain, plainNode,
        spotsBelow_settled, ← plainNode, spotsBelow_plain fields fields]
  | .list items => by rw [plain_list]; rfl
  | .tuple items => by rw [plain_tuple]; rfl
  | .null | .bool _ | .int _ | .float _ | .text _ | .object _ => rfl
  | .deferred .null | .deferred (.bool _) | .deferred (.int _) | .deferred (.float _)
  | .deferred (.text _) | .deferred (.list _) | .deferred (.tuple _) | .deferred (.deferred _)
  | .deferred (.object _) => rfl

theorem spotsBelow_plain (owner : Fields) : (fields : List (String × Value)) →
    spotsBelow (plainNode owner) (plainFields fields) = (spotsBelow owner fields).map Spot.plain
  | [] => rfl
  | (name, value) :: rest => by
    rw [plainFields, spotsBelow, spotsBelow, List.map_append, spotsHeld_plain owner name value,
      spotsBelow_plain owner rest]

theorem spotsHeld_plain (owner : Fields) (name : String) : (value : Value) →
    spotsHeld (plainNode owner) name (plain value) = (spotsHeld owner name value).map Spot.plain
  | .list items => by
    rw [plain_list, spotsHeld, spotsHeld, spotsEach_plain owner name 0 items]
  | .tuple items => by
    rw [plain_tuple, spotsHeld, spotsHeld, spotsEach_plain owner name 0 items]
  | .mapping fields => by
    rw [plain_mapping, spotsHeld, spotsHeld, tagOf_plainNode]
    split
    · rw [← map_under, List.map_cons, plainNode, spotsBelow_settled, ← plainNode,
        spotsBelow_plain fields fields]
      rfl
    · rfl
  | .deferred (.mapping fields) => by
    by_cases filled : fields = []
    · subst filled
      rfl
    · rw [plain_deferred filled, spotsHeld, spotsHeld, tagOf_plainNode]
      split
      · rw [← map_under, List.map_cons, plainNode, spotsBelow_settled, ← plainNode,
          spotsBelow_plain fields fields]
        rfl
      · rfl
  | .null | .bool _ | .int _ | .float _ | .text _ | .object _ => rfl
  | .deferred .null | .deferred (.bool _) | .deferred (.int _) | .deferred (.float _)
  | .deferred (.text _) | .deferred (.list _) | .deferred (.tuple _) | .deferred (.deferred _)
  | .deferred (.object _) => rfl

theorem spotsEach_plain (owner : Fields) (name : String) (index : Nat) : (items : List Value) →
    spotsEach (plainNode owner) name index (items.map plain) =
      (spotsEach owner name index items).map Spot.plain
  | [] => rfl
  | item :: rest => by
    have here := spots_plain (some owner) item
    rw [List.map_cons, spotsEach, spotsEach, List.map_append, ← map_under, ← here,
      spotsEach_plain owner name (index + 1) rest]
    rfl

end

theorem visits_plain (parent : Option Fields) (value : Value) :
    visits (parent.map plainNode) (plain value) = (visits parent value).map Visit.plain := by
  rw [← spots_visits, ← spots_visits, spots_plain, List.map_map, List.map_map]
  rfl

theorem marks_plain (root : Value) : marks (plain root) = marks root := by
  have same := spots_plain none root
  rw [Option.map_none] at same
  rw [marks, marks, same, List.map_map]
  refine List.map_congr_left fun spot _ => ?_
  exact congrArg (Prod.mk spot.position) tagOf_plainNode

end Walk

end RailSpec.Node
