import Mathlib.Logic.Relation
import RailSpec.Proofs.Schema.Plain

/-!
Conventions of providers. A tree may hand out mappings or values that give them on demand, lists or
tuples, and tags under `type` or under `kind`; neither the walk nor extraction tells them apart.
-/

namespace RailSpec

namespace Node

mutual

/-- One convention is exchanged for another at one position of a tree. -/
inductive Respelled : Value → Value → Prop where
  | onDemand {fields : Fields} (filled : fields ≠ []) :
    Respelled (.mapping fields) (.deferred (.mapping fields))
  | toTuple (items : List Value) : Respelled (.list items) (.tuple items)
  | toList (items : List Value) : Respelled (.tuple items) (.list items)
  | inList (before after : List Value) {item other : Value} (inside : Respelled item other) :
    Respelled (.list (before ++ item :: after)) (.list (before ++ other :: after))
  | inTuple (before after : List Value) {item other : Value} (inside : Respelled item other) :
    Respelled (.tuple (before ++ item :: after)) (.tuple (before ++ other :: after))
  | inMapping {fields others : Fields} (inside : FieldsRespelled fields others) :
    Respelled (.mapping fields) (.mapping others)
  | inDeferred {fields others : Fields} (inside : FieldsRespelled fields others) :
    Respelled (.deferred (.mapping fields)) (.deferred (.mapping others))

/-- The same among the fields of a node: its only tag goes from `type` to `kind`, wherever that
comes to stand, or the exchange is made further inside. -/
inductive FieldsRespelled : Fields → Fields → Prop where
  | retagged (tag : String) {before after front back : Fields}
    (others : before ++ after = front ++ back)
    (only : ∀ field ∈ before ++ after, isTagName field.1 = false) :
    FieldsRespelled (before ++ ("type", .text tag) :: after) (front ++ ("kind", .text tag) :: back)
  | inField (name : String) (before after : Fields) {value other : Value}
    (inside : Respelled value other) :
    FieldsRespelled (before ++ (name, value) :: after) (before ++ (name, other) :: after)

end

private theorem settled_retagged {name tag : String} (tagName : isTagName name = true)
    {before after : Fields} (only : ∀ field ∈ before ++ after, isTagName field.1 = false) :
    settled (before ++ (name, .text tag) :: after) = ("kind", .text tag) :: (before ++ after) := by
  have untagged (fields : Fields) (fewer : ∀ field ∈ fields, isTagName field.1 = false) :
      (fields.filter fun field => isTagName field.1) = [] ∧
      (fields.filter fun field => !isTagName field.1) = fields := by
    constructor
    · exact List.filter_eq_nil_iff.mpr fun field member => by simp [fewer field member]
    · exact List.filter_eq_self.mpr fun field member => by simp [fewer field member]
  obtain ⟨noneBefore, allBefore⟩ := untagged before fun field member =>
    only field (List.mem_append_left after member)
  obtain ⟨noneAfter, allAfter⟩ := untagged after fun field member =>
    only field (List.mem_append_right before member)
  simp [settled, List.filter_append, noneBefore, noneAfter, allBefore, allAfter, tagName]

private theorem plainFields_append (before : Fields) (name : String) (value : Value)
    (after : Fields) : plainFields (before ++ (name, value) :: after) =
      plainFields before ++ (name, plain value) :: plainFields after := by
  simp [plainFields_eq]

private theorem isTagName_plainFields {fields : Fields}
    (only : ∀ field ∈ fields, isTagName field.1 = false) :
    ∀ field ∈ plainFields fields, isTagName field.1 = false := by
  intro field member
  rw [plainFields_eq] at member
  obtain ⟨original, present, rfl⟩ := List.mem_map.mp member
  exact only original present

private theorem plainNode_retagged {name tag : String} (tagName : isTagName name = true)
    {before after : Fields} (only : ∀ field ∈ before ++ after, isTagName field.1 = false) :
    plainNode (before ++ (name, .text tag) :: after) =
      ("kind", .text tag) :: plainFields (before ++ after) := by
  have apart := isTagName_plainFields only
  have split : plainFields (before ++ after) = plainFields before ++ plainFields after := by
    simp [plainFields_eq]
  rw [split] at apart ⊢
  rw [plainNode, plainFields_append, plain, settled_retagged tagName apart]
  all_goals simp

theorem FieldsRespelled.nil_iff {fields others : Fields} (same : FieldsRespelled fields others) :
    fields = [] ↔ others = [] := by
  cases same <;> simp

mutual

/-- What is respelled has the same plain form. -/
theorem Respelled.plain_eq {value other : Value} : Respelled value other → plain other = plain value
  | .onDemand filled => by rw [plain_deferred filled, plain_mapping]
  | .toTuple items => by rw [plain_tuple, plain_list]
  | .toList items => by rw [plain_tuple, plain_list]
  | .inList before after inside => by
    rw [plain_list, plain_list, List.map_append, List.map_append, List.map_cons, List.map_cons,
      inside.plain_eq]
  | .inTuple before after inside => by
    rw [plain_tuple, plain_tuple, List.map_append, List.map_append, List.map_cons, List.map_cons,
      inside.plain_eq]
  | .inMapping inside => by rw [plain_mapping, plain_mapping, inside.plainNode_eq]
  | @Respelled.inDeferred fields _ inside => by
    by_cases empty : fields = []
    · rw [empty, inside.nil_iff.mp empty]
    · rw [plain_deferred empty, plain_deferred fun none => empty (inside.nil_iff.mpr none),
        inside.plainNode_eq]

theorem FieldsRespelled.plainNode_eq {fields others : Fields} :
    FieldsRespelled fields others → plainNode others = plainNode fields
  | .retagged tag rest only => by
    rw [plainNode_retagged rfl only, plainNode_retagged rfl (rest ▸ only), rest]
  | .inField name before after inside => by
    rw [plainNode, plainNode, plainFields_append, plainFields_append, inside.plain_eq]

end

/-- Exchanges of conventions at any positions, one after the other. -/
abbrev Respelling : Value → Value → Prop :=
  Relation.ReflTransGen Respelled

theorem Respelling.plain_eq {tree other : Value} (same : Respelling tree other) :
    plain other = plain tree := by
  induction same with
  | refl => rfl
  | tail _ last ih => exact last.plain_eq.trans ih

end Node

namespace Schema

open Node

/-- Neither the declarations of a tree nor the marks of a walk through it depend on the conventions
that its provider keeps to. -/
theorem extract_respelled (source : Source) {tree other : Value} (same : Respelling tree other)
    (diagnostics : Diagnostics) :
    extract source other diagnostics = extract source tree diagnostics ∧
      marks other = marks tree := by
  constructor
  · rw [← extract_plain, same.plain_eq, extract_plain]
  · rw [← marks_plain, same.plain_eq, marks_plain]

private def moodName : String × Value :=
  ("name", .text "create_enum")

private def moodLabels : List Value :=
  [.text "sad", .text "ok"]

/-- The call `create_enum "mood", ["sad", "ok"]` as a mapping with a type. -/
def moodCall : Value :=
  .mapping [("type", .text "CallNode"), moodName,
    ("arguments", .list [.text "mood", .mapping [("elements", .list moodLabels)]])]

/-- The same call, given on demand, with a kind and tuples. -/
def moodRespelled : Value :=
  .deferred (.mapping [moodName,
    ("arguments", .tuple [.text "mood", .mapping [("elements", .tuple moodLabels)]]),
    ("kind", .text "CallNode")])

private theorem mood_respelling : Respelling moodCall moodRespelled := by
  have inside : Respelled (.list [.text "mood", .mapping [("elements", .list moodLabels)]])
      (.list [.text "mood", .mapping [("elements", .tuple moodLabels)]]) :=
    .inList [.text "mood"] [] (.inMapping (.inField "elements" [] [] (.toTuple moodLabels)))
  have elements := FieldsRespelled.inField "arguments" [("type", .text "CallNode"), moodName] [] inside
  have arguments := FieldsRespelled.inField "arguments" [("type", .text "CallNode"), moodName] []
    (.toTuple [.text "mood", .mapping [("elements", .tuple moodLabels)]])
  have tag := @FieldsRespelled.retagged "CallNode" []
    [moodName, ("arguments", .tuple [.text "mood", .mapping [("elements", .tuple moodLabels)]])] _ []
    (List.append_nil _).symm (by decide)
  exact (((Relation.ReflTransGen.refl.tail (.inMapping elements)).tail (.inMapping arguments)).tail
    (.inMapping tag)).tail (.onDemand (by simp))

theorem extract_mood_respelled :
    extract (Source.ofString "") moodRespelled {} =
      .ok ⟨[], [namedEnum "mood" ["sad", "ok"]], {}⟩ ∧
    marks moodRespelled = [([], some "CallNode")] := by
  obtain ⟨same, sameMarks⟩ := extract_respelled (Source.ofString "") mood_respelling {}
  rw [same, sameMarks]
  exact ⟨rfl, rfl⟩

end Schema

end RailSpec
