import Mathlib.Data.List.Nodup
import Mathlib.Data.List.Perm.Basic
import RailSpec.ParseTree.Node
import RailSpec.Proofs.Node.Lookup

/-!
Children among the fields of a parsed node. Every named child but a comment stands in exactly one
field, whichever names the grammar gives to children, and nothing else that a walk could meet does.
-/

namespace RailSpec

open Node (Visit visitsBelow visitsHeld visits)

/-- Looking distinct names up one by one finds every field once. -/
theorem Fields.lookedUp_perm {names : List String} {fields : Fields} (nodup : names.Nodup)
    (distinct : Distinct fields) (known : ∀ name ∈ Fields.names fields, name ∈ names) :
    (names.filterMap fun name => (value? fields name).map fun value => (name, value)).Perm
      fields := by
  have found_iff (name : String) (field : String × Value) :
      field ∈ (value? fields name).map (fun value => (name, value)) ↔
        name = field.1 ∧ value? fields name = some field.2 := by
    obtain ⟨key, held⟩ := field
    simp only [Option.mem_def, Option.map_eq_some_iff, Prod.mk.injEq]
    constructor
    · rintro ⟨value, found, same, rfl⟩
      exact ⟨same, found⟩
    · rintro ⟨same, found⟩
      exact ⟨held, found, same, rfl⟩
  apply (List.perm_ext_iff_of_nodup ?once (List.Nodup.of_map _ distinct)).mpr
  case once =>
    apply List.Nodup.filterMap _ nodup
    intro first second field one other
    exact ((found_iff first field).mp one).1.trans ((found_iff second field).mp other).1.symm
  intro field
  rw [List.mem_filterMap]
  constructor
  · rintro ⟨name, _, found⟩
    obtain ⟨rfl, held⟩ := (found_iff name field).mp found
    exact mem_of_value? held
  · intro member
    have named : field.1 ∈ Fields.names fields := List.mem_map.mpr ⟨field, member, rfl⟩
    exact ⟨field.1, known _ named, (found_iff _ field).mpr ⟨rfl, value?_of_mem distinct member⟩⟩

namespace ParseTree

/-- A named node that is no comment: a piece of syntax. -/
def Label.isSyntax (label : Label) : Bool :=
  label.named && label.kind ≠ "comment"

section Place

variable {seen : List String} {children : List (Label × Value)}

theorem place_names (name : String) (member : name ∈ Fields.names (place seen children).claimed) :
    name ∈ fieldNames ∧ name ∉ seen ∧ ∃ child ∈ children, child.1.field = some name := by
  induction children generalizing seen with
  | nil => simp [place, Fields.names] at member
  | cons child rest ih =>
    obtain ⟨label, value⟩ := child
    rw [place] at member
    split at member
    · rename_i key found
      obtain ⟨field, fresh⟩ := Option.filter_eq_some_iff.mp found
      simp only [Bool.and_eq_true, Bool.not_eq_eq_eq_not, Bool.not_true,
        List.contains_eq_mem, decide_eq_false_iff_not, decide_eq_true_eq] at fresh
      have later (held : name ∈ Fields.names (place (key :: seen) rest).claimed) :
          name ∈ fieldNames ∧ name ∉ seen ∧ ∃ child ∈ (label, value) :: rest, child.1.field = some name := by
        obtain ⟨known, unseen, origin, present, same⟩ := ih held
        exact ⟨known, fun old => unseen (List.mem_cons_of_mem _ old), origin,
          List.mem_cons_of_mem _ present, same⟩
      by_cases named : label.named = true
      · simp only [named, if_true, Fields.names, List.map_cons, List.mem_cons] at member
        rcases member with same | held
        · subst same
          exact ⟨fresh.1, fresh.2, (label, value), List.mem_cons_self .., field⟩
        · exact later held
      · simp only [named, Bool.false_eq_true, if_false] at member
        exact later member
    · have held : name ∈ Fields.names (place seen rest).claimed := by
        split at member <;> exact member
      obtain ⟨known, unseen, origin, present, same⟩ := ih held
      exact ⟨known, unseen, origin, List.mem_cons_of_mem _ present, same⟩

theorem place_child {value : Value}
    (member : value ∈ (place seen children).claimed.map Prod.snd ++ (place seen children).others) :
    value ∈ children.map Prod.snd := by
  induction children generalizing seen with
  | nil => simp [place] at member
  | cons child rest ih =>
    obtain ⟨label, held⟩ := child
    have later {seen : List String} (among : value ∈ (place seen rest).claimed.map Prod.snd ++
        (place seen rest).others) : value ∈ ((label, held) :: rest).map Prod.snd :=
      List.mem_cons_of_mem _ (ih among)
    rw [place] at member
    split at member
    · split at member
      · rcases List.mem_cons.mp member with same | among
        · exact same ▸ List.mem_cons_self ..
        · exact later among
      · exact later member
    · split at member
      · rcases List.mem_append.mp member with claimed | other
        · exact later (List.mem_append_left _ claimed)
        · rcases List.mem_cons.mp other with same | among
          · exact same ▸ List.mem_cons_self ..
          · exact later (List.mem_append_right _ among)
      · exact later member

theorem place_distinct : Fields.Distinct (place seen children).claimed := by
  induction children generalizing seen with
  | nil => exact List.nodup_nil
  | cons child rest ih =>
    obtain ⟨label, value⟩ := child
    rw [place]
    split
    · rename_i key found
      by_cases named : label.named = true
      · simp only [named, if_true]
        refine List.nodup_cons.mpr ⟨?_, ih⟩
        intro member
        exact (place_names key member).2.1 (List.mem_cons_self ..)
      · simp only [named, Bool.false_eq_true, if_false]
        exact ih
    · split <;> exact ih

/-- No child is dropped or doubled, unless it is punctuation or a comment. -/
theorem place_perm
    (comments : ∀ child ∈ children, child.1.kind = "comment" →
      ∀ name ∈ child.1.field, name ∉ fieldNames) :
    ((place seen children).claimed.map Prod.snd ++ (place seen children).others).Perm
      ((children.filter fun child => child.1.isSyntax).map Prod.snd) := by
  induction children generalizing seen with
  | nil => exact List.Perm.refl _
  | cons child rest ih =>
    obtain ⟨label, value⟩ := child
    have later (seen : List String) := @ih seen fun child member =>
      comments child (List.mem_cons_of_mem _ member)
    rw [place, List.filter_cons]
    split
    · rename_i key found
      obtain ⟨field, fresh⟩ := Option.filter_eq_some_iff.mp found
      have known : key ∈ fieldNames := by simp_all
      have code : label.kind ≠ "comment" := fun comment =>
        comments (label, value) (List.mem_cons_self ..) comment key field known
      by_cases named : label.named = true
      · simp only [named, if_true, Label.isSyntax, code, ne_eq, not_false_eq_true, decide_true,
          Bool.and_true, List.map_cons, List.cons_append]
        exact (later _).cons value
      · simp only [named, Bool.false_eq_true, if_false, Label.isSyntax, Bool.false_and]
        exact later _
    · by_cases syntactic : label.isSyntax = true
      · have both : (label.named && decide (label.kind ≠ "comment")) = true := syntactic
        simp only [both, syntactic, if_true, List.map_cons]
        exact List.perm_middle.trans ((later _).cons value)
      · have neither : ¬ (label.named && decide (label.kind ≠ "comment")) = true := syntactic
        simp only [neither, syntactic]
        exact later _

end Place

section Own

/-- The kinds of nodes that may have a value of their own. -/
def valueKinds : List String :=
  ["integer", "float", "true", "false", "unary"]

theorem leafValue_some {kind : String} {text : List Char} {value : Value}
    (found : leafValue kind text = some value) : kind ∈ valueKinds ∧ value.isPrimitive = true := by
  unfold leafValue at found
  split at found
  · rename_i same
    subst same
    cases found
    exact ⟨by decide, rfl⟩
  split at found
  · rename_i same
    subst same
    cases found
    exact ⟨by decide, rfl⟩
  split at found
  · rename_i same
    subst same
    obtain ⟨number, _, rfl⟩ := Option.map_eq_some_iff.mp found
    exact ⟨by decide, rfl⟩
  split at found
  · rename_i same
    subst same
    obtain ⟨number, _, rfl⟩ := Option.map_eq_some_iff.mp found
    exact ⟨by decide, rfl⟩
  · cases found

theorem signedValue_primitive {sign : List Char} {number value : Value}
    (found : signedValue sign number = some value) : value.isPrimitive = true := by
  unfold signedValue at found
  split at found
  · split at found
    · cases found
      rfl
    · split at found
      · cases found
        rfl
      · cases found
  · split at found
    · cases found
      rfl
    · split at found
      · cases found
        rfl
      · cases found
  · cases found

theorem unaryValue_primitive {located : Located} {children : List Label} {value : Value}
    (found : unaryValue located children = some value) : value.isPrimitive = true := by
  unfold unaryValue at found
  split at found
  · split at found
    · obtain ⟨number, _, signed⟩ := Option.bind_eq_some_iff.mp found
      exact signedValue_primitive signed
    · cases found
  · cases found

theorem ownValue_some {located : Located} {label : Label} {children : List Label} {value : Value}
    (found : ownValue located label children = some value) :
    label.kind ∈ valueKinds ∧ value.isPrimitive = true := by
  unfold ownValue at found
  split at found
  · rename_i unary
    rw [unary]
    exact ⟨by decide, unaryValue_primitive found⟩
  · exact leafValue_some found

end Own

section Fields

variable (owner : Fields)

theorem listName_ne_value (kind : String) : listName kind ≠ "value" := by
  unfold listName
  repeat' split
  all_goals decide

/-- The claimed children in the order of the grammar's fields. -/
def Placed.ordered (placed : Placed) : Fields :=
  fieldNames.filterMap fun name =>
    (Fields.value? placed.claimed name).map fun value => (name, value)

theorem childFields_cases (kind : String) (placed : Placed) :
    (childFields kind placed = placed.ordered ∧ placed.others = []) ∨
      ∃ name, (name = "children" ∨ name = listName kind) ∧
        childFields kind placed = placed.ordered ++ [(name, .list placed.others)] := by
  have either : (if (Fields.value? placed.claimed (listName kind)).isSome then "children"
      else listName kind) = "children" ∨ (if (Fields.value? placed.claimed (listName kind)).isSome
        then "children" else listName kind) = listName kind := by
    split
    · exact .inl rfl
    · exact .inr rfl
  unfold childFields
  simp only
  by_cases empty : placed.others.isEmpty && !keepsEmpty (if (Fields.value? placed.claimed
      (listName kind)).isSome then "children" else listName kind)
  · left
    rw [if_pos empty]
    rw [Bool.and_eq_true, List.isEmpty_iff] at empty
    exact ⟨rfl, empty.1⟩
  · right
    rw [if_neg empty]
    exact ⟨_, either, rfl⟩

theorem Placed.mem_ordered {placed : Placed} {field : String × Value}
    (member : field ∈ placed.ordered) : field.1 ∈ fieldNames ∧ field ∈ placed.claimed := by
  obtain ⟨name, known, there⟩ := List.mem_filterMap.mp member
  obtain ⟨value, present, rfl⟩ := Option.map_eq_some_iff.mp there
  exact ⟨known, Fields.mem_of_value? present⟩

theorem value_mem_childFields {kind : String} {placed : Placed}
    (member : "value" ∈ Fields.names (childFields kind placed)) :
    "value" ∈ Fields.names placed.claimed := by
  have claimed : "value" ∈ Fields.names placed.ordered := by
    rcases childFields_cases kind placed with ⟨same, _⟩ | ⟨name, either, same⟩
    · rwa [same] at member
    · rw [same, Fields.names, List.map_append, List.mem_append] at member
      rcases member with ordered | list
      · exact ordered
      · have own : "value" = name := List.mem_singleton.mp list
        rcases either with rfl | rfl
        · exact absurd own (by decide)
        · exact absurd own.symm (listName_ne_value kind)
  obtain ⟨field, found, same⟩ := List.mem_map.mp claimed
  exact List.mem_map.mpr ⟨field, (Placed.mem_ordered found).2, same⟩

theorem visitsHeld_primitive {value : Value} (primitive : value.isPrimitive = true) :
    visitsHeld owner value = [] := by
  cases value <;> first | rfl | cases primitive

theorem childFields_visits (kind : String) {placed : Placed}
    (distinct : Fields.Distinct placed.claimed)
    (known : ∀ name ∈ Fields.names placed.claimed, name ∈ fieldNames)
    (single : ∀ value ∈ placed.claimed.map Prod.snd,
      visitsHeld owner value = visits (some owner) value) :
    (visitsBelow owner (childFields kind placed)).Perm
      ((placed.claimed.map Prod.snd ++ placed.others).flatMap (visits (some owner))) := by
  have claimed : (visitsBelow owner placed.ordered).Perm
      ((placed.claimed.map Prod.snd).flatMap (visits (some owner))) := by
    have same : (placed.claimed.map Prod.snd).flatMap (visits (some owner)) =
        visitsBelow owner placed.claimed := by
      rw [List.flatMap_map, Node.visitsBelow_eq]
      refine List.flatMap_congr fun field member => ?_
      exact (single field.2 (List.mem_map.mpr ⟨field, member, rfl⟩)).symm
    rw [same, Node.visitsBelow_eq, Node.visitsBelow_eq]
    exact (Fields.lookedUp_perm (by decide) distinct known).flatMap_right _
  rw [List.flatMap_append]
  rcases childFields_cases kind placed with ⟨same, none⟩ | ⟨name, _, same⟩
  · rw [same, none, List.flatMap_nil, List.append_nil]
    exact claimed
  · rw [same, Node.visitsBelow_eq, List.flatMap_append, List.flatMap_singleton,
      ← Node.visitsBelow_eq, visitsHeld, Node.visitsEach_eq]
    exact claimed.append_right _

/-- The kind of a node is its tag. -/
theorem tagOf_fieldsOf (located : Located) (label : Label) (children : List (Label × Value)) :
    Node.tagOf (fieldsOf located label children) = some label.kind := by
  unfold fieldsOf
  simp only
  split
  · simp [Node.tagOf, Node.text?, Fields.put, Fields.value?_cons]
  · simp [Node.tagOf, Node.text?, Fields.value?_cons]

/-- Below a parsed node the walk meets its syntactic children and what is below them. -/
theorem fieldsOf_visits (located : Located) {label : Label} {children : List (Label × Value)}
    (leaf : label.kind ∈ valueKinds → ∀ child ∈ children, child.1.field ≠ some "value")
    (comments : ∀ child ∈ children, child.1.kind = "comment" →
      ∀ name ∈ child.1.field, name ∉ fieldNames)
    (single : ∀ child ∈ children, visitsHeld owner child.2 = visits (some owner) child.2) :
    (visitsBelow owner (fieldsOf located label children)).Perm
      (((children.filter fun child => child.1.isSyntax).map Prod.snd).flatMap
        (visits (some owner))) := by
  have placed := @place_perm [] children comments
  have below : (visitsBelow owner (childFields label.kind (place [] children))).Perm
      (((children.filter fun child => child.1.isSyntax).map Prod.snd).flatMap
        (visits (some owner))) := by
    refine (childFields_visits owner label.kind place_distinct ?known ?held).trans
      (placed.flatMap_right _)
    case known => exact fun name member => (place_names name member).1
    case held =>
      intro value member
      have among := placed.subset (List.mem_append_left _ member)
      obtain ⟨child, kept, rfl⟩ := List.mem_map.mp among
      exact single child (List.mem_filter.mp kept).1
  have shell : visitsBelow owner (("type", .text label.kind) :: ("location", locationField located label)
      :: childFields label.kind (place [] children)) =
      visitsBelow owner (childFields label.kind (place [] children)) := by
    rw [visitsBelow, visitsBelow]
    rfl
  unfold fieldsOf
  simp only
  split
  · rename_i value own
    obtain ⟨valued, primitive⟩ := ownValue_some own
    have absent : "value" ∉ Fields.names (("type", .text label.kind)
        :: ("location", locationField located label)
        :: childFields label.kind (place [] children)) := by
      intro member
      have inside : "value" ∈ Fields.names (childFields label.kind (place [] children)) := by
        simpa [Fields.names] using member
      obtain ⟨_, _, child, present, field⟩ := place_names _ (value_mem_childFields inside)
      exact leaf valued child present field
    rw [Fields.put_of_not_mem absent, Node.visitsBelow_eq, List.flatMap_append,
      List.flatMap_singleton, visitsHeld_primitive owner primitive, List.append_nil,
      ← Node.visitsBelow_eq, shell]
    exact below
  · rw [shell]
    exact below

end Fields

end ParseTree

end RailSpec
