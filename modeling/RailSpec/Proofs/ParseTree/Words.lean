import RailSpec.Proofs.ParseTree.Reach
import RailSpec.Proofs.Schema.Returns
import RailSpec.Reader

/-!
Words of parsed texts. A bare word of a parsed tree has neither elements nor pairs, so extraction
gives a schema for every tree in which every integer can be written.
-/

namespace RailSpec.ParseTree

open Node (HandedDown Opens)

/-- What a parsed tree is made of: its nodes, lists of them, their places, and plain values. -/
inductive Occurs (located : Located) : Value → Prop where
  | node (tree : ParseTree) : Occurs located (toValue located tree)
  | nodes {items : List Value} (each : ∀ item ∈ items, Occurs located item) :
    Occurs located (.list items)
  | place (label : Label) : Occurs located (locationField located label)
  | plain {value : Value} (primitive : value.isPrimitive = true) : Occurs located value

/-- A node that is made of such values. -/
def OccursIn (located : Located) (fields : Fields) : Prop :=
  ∀ field ∈ fields, Occurs located field.2

variable {located : Located} {label : Label} {children : List ParseTree}

theorem mem_toValues {value : Value}
    (member : value ∈ (toValues located children).map Prod.snd) : Occurs located value := by
  rw [toValues_eq, List.map_map] at member
  obtain ⟨tree, _, rfl⟩ := List.mem_map.mp member
  exact .node tree

theorem childFields_occurs :
    OccursIn located (childFields label.kind (place [] (toValues located children))) := by
  have claimed {field : String × Value}
      (member : field ∈ (place [] (toValues located children)).ordered) :
      Occurs located field.2 :=
    mem_toValues (place_child (List.mem_append_left _
      (List.mem_map_of_mem (Placed.mem_ordered member).2)))
  intro field member
  rcases childFields_cases label.kind (place [] (toValues located children)) with
    ⟨same, _⟩ | ⟨name, _, same⟩
  · exact claimed (same ▸ member)
  · rw [same] at member
    rcases List.mem_append.mp member with ordered | list
    · exact claimed ordered
    · rw [List.mem_singleton.mp list]
      exact .nodes fun item inside => mem_toValues (place_child (List.mem_append_right _ inside))

theorem nodeFields_occurs (tree : ParseTree) : OccursIn located (nodeFields located tree) := by
  obtain ⟨label, children⟩ := tree
  have shell : OccursIn located (("type", .text label.kind) :: ("location", locationField located label)
      :: childFields label.kind (place [] (toValues located children))) :=
    List.forall_mem_cons.mpr ⟨.plain rfl, List.forall_mem_cons.mpr ⟨.place label, childFields_occurs⟩⟩
  intro field member
  rw [nodeFields, fieldsOf] at member
  split at member
  · rename_i value own
    rcases Fields.mem_put member with rfl | old
    · exact .plain (ownValue_some own).2
    · exact shell field old
  · exact shell field member

theorem Occurs.opens {value : Value} (occurs : Occurs located value) :
    Opens (OccursIn located) (Occurs located) value := by
  cases occurs with
  | node tree =>
    rw [toValue_eq]
    constructor
    · rintro fields ⟨⟩
      exact nodeFields_occurs tree
    · rintro items ⟨⟩
  | nodes each =>
    constructor
    · rintro fields ⟨⟩
    · rintro items ⟨⟩
      exact each
  | place label =>
    constructor
    · rintro fields ⟨⟩
      exact List.forall_mem_cons.mpr ⟨.plain rfl, List.forall_mem_singleton.mpr (.plain rfl)⟩
    · rintro items ⟨⟩
  | plain primitive =>
    cases value with
    | bool truth => exact ⟨nofun, nofun⟩
    | int number => exact ⟨nofun, nofun⟩
    | float number => exact ⟨nofun, nofun⟩
    | text characters => exact ⟨nofun, nofun⟩
    | _ => cases primitive

/-- Being part of a parsed tree is handed down to all that a node holds. -/
theorem occurs_handedDown (located : Located) :
    HandedDown (OccursIn located) (Occurs located) where
  opens := Occurs.opens
  held whole member := (whole _ member).opens
  field whole member _ := whole _ member

/-- The names of the fields that a word may have. -/
def wordNames : List String :=
  "type" :: "location" :: "value" :: "children" :: fieldNames

theorem names_nodeFields {tree : ParseTree} (word : tree.label.kind = "identifier") :
    ∀ name ∈ Fields.names (nodeFields located tree), name ∈ wordNames := by
  obtain ⟨label, children⟩ := tree
  have kind : label.kind = "identifier" := word
  have claimed {field : String × Value}
      (member : field ∈ (place [] (toValues located children)).ordered) : field.1 ∈ wordNames :=
    List.mem_append_right ["type", "location", "value", "children"] (Placed.mem_ordered member).1
  have inside : ∀ field ∈ childFields label.kind (place [] (toValues located children)),
      field.1 ∈ wordNames := by
    intro field member
    rcases childFields_cases label.kind (place [] (toValues located children)) with
      ⟨same, _⟩ | ⟨name, either, same⟩
    · exact claimed (same ▸ member)
    · rw [same] at member
      rcases List.mem_append.mp member with ordered | list
      · exact claimed ordered
      · rw [List.mem_singleton.mp list]
        have named : name = "children" := either.elim id fun own => own.trans (by rw [kind]; rfl)
        exact named ▸ (by decide : "children" ∈ wordNames)
  have shell : ∀ field ∈ ("type", Value.text label.kind) :: ("location", locationField located label)
      :: childFields label.kind (place [] (toValues located children)), field.1 ∈ wordNames :=
    List.forall_mem_cons.mpr ⟨(by decide : "type" ∈ wordNames),
      List.forall_mem_cons.mpr ⟨(by decide : "location" ∈ wordNames), inside⟩⟩
  intro name member
  obtain ⟨field, held, rfl⟩ := List.mem_map.mp member
  rw [nodeFields, fieldsOf] at held
  split at held
  · rename_i value own
    rcases Fields.mem_put held with rfl | old
    · exact (by decide : "value" ∈ wordNames)
    · exact shell field old
  · exact shell field held

/-- No word in a parsed tree has a list or a mapping in its place. -/
theorem Occurs.notCompound {value : Value} (occurs : Occurs located value) :
    ¬ Declaration.IsCompoundWord value := by
  rintro ⟨fields, found, word, _, _, compound⟩
  cases occurs with
  | node tree =>
    rw [toValue_eq] at found
    cases found
    rw [tagOf_nodeFields] at word
    have unnamed {name : String} (other : name ∉ wordNames) :
        (nodeFields located tree).items? name = none := by
      rw [Fields.items?, Fields.value?_of_not_mem fun held =>
        other (names_nodeFields (Option.some.inj word) name held)]
      rfl
    rcases compound with elements | pairs
    · exact elements (unnamed (by decide))
    · exact pairs (unnamed (by decide))
  | nodes each => cases found
  | place label =>
    cases found
    cases word
  | plain primitive =>
    cases value with
    | mapping fields => cases primitive
    | deferred inner => cases primitive
    | _ => cases found

/-- Every parsed tree in which every integer can be written gives a schema. -/
theorem extract_toValue (source : Source) {tree : ParseTree}
    (writable : (toValue located tree).IsWritable) (diagnostics : Diagnostics) :
    ∃ schema, Schema.extract source (toValue located tree) diagnostics = .ok schema := by
  have down := occurs_handedDown located
  have visits := down.walk (Occurs.node tree).opens
  obtain ⟨declared, here⟩ := (Schema.declaredIn_returns_iff source _).mpr fun visit met => by
    refine (Schema.declaredAt_returns_iff source (Node.walk_writable writable visit met)).mpr ?_
    intro call called statement member
    rw [(Declaration.tableCall_named called).2] at member
    exact (down.statements (Node.opens_mapping (visits visit met).itself) statement member).notCompound
  exact ⟨_, by rw [Schema.extract, here]; rfl⟩

end RailSpec.ParseTree
