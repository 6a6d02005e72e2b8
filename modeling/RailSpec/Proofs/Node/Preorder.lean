import RailSpec.Proofs.Node.Lookup

/-!
The order of a walk. The walk through a tree visits the tagged nodes at the positions that it can
reach, each of them once, in the order of fields and of lists, and a node before all below it.
-/

namespace RailSpec.Node

/-- A step down from a node: the place and the name of a field and, if a list is held there, the
place in the list. -/
structure Place where
  field : Nat
  name : String
  item : Option Nat
  deriving DecidableEq, Repr

/-- The order of fields, and in one field that of its list. -/
def Place.Before (first second : Place) : Prop :=
  first.field < second.field ∨
    first.field = second.field ∧ ∃ index ∈ first.item, ∃ later ∈ second.item, index < later

/-- The lexicographic order of ways down from a root. -/
def Precedes : List Place → List Place → Prop :=
  List.Lex Place.Before

/-- What the value of a field holds: the nodes in a list, or itself if it is a node with a tag. -/
inductive Held : Value → Option Nat → Fields → Prop where
  | item {value item : Value} {items : List Value} {index : Nat} {fields : Fields}
    (listed : value.items? = some items) (placed : items[index]? = some item)
    (node : fields? item = some fields) : Held value (some index) fields
  | single {value : Value} {fields : Fields} (node : fields? value = some fields)
    (tagged : (tagOf fields).isSome = true) : Held value none fields

/-- The ways from a node to those inside it, each with the node directly around it. -/
inductive Reachable : Visit → List Place → Visit → Prop where
  | here (visit : Visit) : Reachable visit [] visit
  | inside {visit last : Visit} {place : Place} {value : Value} {inner : Fields} {path : List Place}
    (field : visit.fields[place.field]? = some (place.name, value))
    (held : Held value place.item inner)
    (further : Reachable ⟨inner, some visit.fields⟩ path last) : Reachable visit (place :: path) last

theorem Place.Before.irrefl (place : Place) : ¬ place.Before place := by
  rintro (less | ⟨_, index, first, later, second, less⟩)
  · exact Nat.lt_irrefl _ less
  · cases Option.mem_unique first second
    exact Nat.lt_irrefl _ less

theorem Precedes.irrefl (path : List Place) : ¬ Precedes path path :=
  List.lex_irrefl Place.Before.irrefl path

/-- A position comes before all below it. -/
theorem Precedes.above (path : List Place) {below : List Place} (inside : below ≠ []) :
    Precedes path (path ++ below) := by
  induction path with
  | nil =>
    obtain ⟨place, rest, rfl⟩ := List.exists_cons_of_ne_nil inside
    exact .nil
  | cons place rest ih => exact .cons ih

section Traces

/-- Visits of the tagged nodes at the positions of a relation, each of them once and in order. -/
def Traces (reaches : List Place → Visit → Prop) (met : List Visit) : Prop :=
  ∃ spots : List (List Place × Visit), met = spots.map Prod.snd ∧
    (spots.map Prod.fst).Pairwise Precedes ∧
    ∀ path visit, (path, visit) ∈ spots ↔
      reaches path visit ∧ (tagOf visit.fields).isSome = true

/-- The positions of a relation, seen from one step further out. -/
def Under (place : Place) (reaches : List Place → Visit → Prop) (path : List Place)
    (visit : Visit) : Prop :=
  ∃ rest, path = place :: rest ∧ reaches rest visit

variable {reaches others : List Place → Visit → Prop} {met more : List Visit}

theorem Traces.congr (traces : Traces reaches met)
    (same : ∀ path visit, reaches path visit ↔ others path visit) : Traces others met := by
  obtain ⟨spots, walked, sorted, spot⟩ := traces
  refine ⟨spots, walked, sorted, ?_⟩
  intro path visit
  rw [spot, same]

theorem Traces.nil (nowhere : ∀ path visit, ¬ reaches path visit) : Traces reaches [] := by
  refine ⟨[], rfl, .nil, ?_⟩
  intro path visit
  simp [nowhere]

theorem Traces.append (first : Traces reaches met) (second : Traces others more)
    (before : ∀ path visit later other, reaches path visit → others later other →
      Precedes path later) :
    Traces (fun path visit => reaches path visit ∨ others path visit) (met ++ more) := by
  obtain ⟨spots, rfl, sorted, spot⟩ := first
  obtain ⟨rest, rfl, sortedRest, spotRest⟩ := second
  refine ⟨spots ++ rest, by rw [List.map_append], ?_, ?_⟩
  · rw [List.map_append]
    refine List.pairwise_append.mpr ⟨sorted, sortedRest, ?_⟩
    intro path here later there
    obtain ⟨⟨_, visit⟩, member, rfl⟩ := List.mem_map.mp here
    obtain ⟨⟨_, other⟩, memberRest, rfl⟩ := List.mem_map.mp there
    exact before _ visit _ other ((spot _ _).mp member).1 ((spotRest _ _).mp memberRest).1
  · intro path visit
    rw [List.mem_append, spot, spotRest, or_and_right]

theorem Traces.under (traces : Traces reaches met) (place : Place) :
    Traces (Under place reaches) met := by
  obtain ⟨spots, rfl, sorted, spot⟩ := traces
  refine ⟨spots.map fun spot => (place :: spot.1, spot.2), by rw [List.map_map]; rfl, ?_, ?_⟩
  · rw [List.map_map]
    rw [List.pairwise_map] at sorted ⊢
    exact sorted.imp List.Lex.cons
  · intro path visit
    rw [List.mem_map]
    constructor
    · rintro ⟨⟨rest, other⟩, member, same⟩
      cases same
      obtain ⟨reached, tagged⟩ := (spot _ _).mp member
      exact ⟨⟨rest, rfl, reached⟩, tagged⟩
    · rintro ⟨⟨rest, rfl, reached⟩, tagged⟩
      exact ⟨(rest, visit), (spot _ _).mpr ⟨reached, tagged⟩, rfl⟩

/-- Things in a row, each with positions of its own that lie before those of all behind it. -/
theorem Traces.row {α : Type} (family : Nat → α → List Place → Visit → Prop)
    {visitsOf : α → List Visit} {items : List α}
    (ordered : ∀ index later, index < later → ∀ item other path visit more next,
      family index item path visit → family later other more next → Precedes path more)
    (each : ∀ item ∈ items, ∀ index, Traces (family index item) (visitsOf item)) (start : Nat) :
    Traces (fun path visit => ∃ index item, items[index]? = some item ∧
      family (start + index) item path visit) (items.flatMap visitsOf) := by
  induction items generalizing start with
  | nil =>
    apply Traces.nil
    rintro path visit ⟨index, item, held, _⟩
    cases held
  | cons item rest ih =>
    obtain ⟨here, later⟩ := List.forall_mem_cons.mp each
    have both := (here start).append (ih later (start + 1)) (by
      rintro path visit more next first ⟨index, other, _, second⟩
      exact ordered start (start + 1 + index) (by omega) item other path visit more next first second)
    refine both.congr fun path visit => ?_
    constructor
    · rintro (first | ⟨index, other, held, behind⟩)
      · exact ⟨0, item, rfl, first⟩
      · exact ⟨index + 1, other, held, by rwa [Nat.add_right_comm, Nat.add_assoc] at behind⟩
    · rintro ⟨index, other, held, reached⟩
      cases index with
      | zero =>
        cases held
        exact .inl reached
      | succ index =>
        exact .inr ⟨index, other, held, by rwa [Nat.add_right_comm, Nat.add_assoc]⟩

end Traces

section Walk

variable {value : Value} {owner fields : Fields} {parent : Option Fields}

/-- The ways from a value, if it is a node. -/
def From (parent : Option Fields) (value : Value) (path : List Place) (visit : Visit) : Prop :=
  ∃ fields, fields? value = some fields ∧ Reachable ⟨fields, parent⟩ path visit

/-- The ways through a field of a node, by the field's place and name and its value. -/
def Through (owner : Fields) (place : Nat) (field : String × Value) (path : List Place)
    (visit : Visit) : Prop :=
  ∃ item inner rest, path = ⟨place, field.1, item⟩ :: rest ∧ Held field.2 item inner ∧
    Reachable ⟨inner, some owner⟩ rest visit

theorem held_items_iff {items : List Value} {item : Option Nat} {inner : Fields}
    (listed : value.items? = some items) : Held value item inner ↔
      ∃ index part, item = some index ∧ items[index]? = some part ∧ fields? part = some inner := by
  constructor
  · intro held
    cases held with
    | item same placed node =>
      cases listed.symm.trans same
      exact ⟨_, _, rfl, placed, node⟩
    | single node tagged =>
      cases value with
      | list held => cases node
      | tuple held => cases node
      | _ => cases listed
  · rintro ⟨index, part, rfl, placed, node⟩
    exact .item listed placed node

theorem held_alone_iff {item : Option Nat} {inner : Fields} (unlisted : value.items? = none) :
    Held value item inner ↔
      item = none ∧ fields? value = some inner ∧ (tagOf inner).isSome = true := by
  constructor
  · intro held
    cases held with
    | item same placed node => cases unlisted.symm.trans same
    | single node tagged => exact ⟨rfl, node, tagged⟩
  · rintro ⟨rfl, node, tagged⟩
    exact .single node tagged

theorem visitsHeld_items_traces {items : List Value} (place : Nat) (name : String)
    (listed : value.items? = some items)
    (each : ∀ item ∈ items, Traces (From (some owner) item) (visits (some owner) item)) :
    Traces (Through owner place (name, value)) (visitsHeld owner value) := by
  rw [visitsHeld_of_items listed]
  let family (index : Nat) (item : Value) := Under ⟨place, name, some index⟩ (From (some owner) item)
  have row := Traces.row family (by
    rintro index later less item other _ visit _ next ⟨rest, rfl, _⟩ ⟨more, rfl, _⟩
    exact .rel (.inr ⟨rfl, index, rfl, later, rfl, less⟩))
    (fun item member index => (each item member).under ⟨place, name, some index⟩) 0
  apply row.congr
  intro path visit
  constructor
  · rintro ⟨index, item, placed, rest, rfl, inner, node, further⟩
    rw [Nat.zero_add]
    exact ⟨some index, inner, rest, rfl, .item listed placed node, further⟩
  · rintro ⟨_, inner, rest, rfl, held, further⟩
    obtain ⟨index, item, rfl, placed, node⟩ := (held_items_iff listed).mp held
    exact ⟨index, item, placed, rest, by rw [Nat.zero_add], inner, node, further⟩

theorem visitsHeld_alone_traces (place : Nat) (name : String) (unlisted : value.items? = none)
    (alone : Traces (From (some owner) value) (visits (some owner) value)) :
    Traces (Through owner place (name, value)) (visitsHeld owner value) := by
  cases node : fields? value with
  | none =>
    rw [visitsHeld_of_other unlisted node]
    apply Traces.nil
    rintro path visit ⟨item, inner, rest, rfl, held, further⟩
    cases node.symm.trans ((held_alone_iff unlisted).mp held).2.1
  | some fields =>
    rw [visitsHeld_of_fields node]
    split
    · rename_i tagged
      apply (alone.under ⟨place, name, none⟩).congr
      intro path visit
      constructor
      · rintro ⟨rest, rfl, inner, same, further⟩
        cases node.symm.trans same
        exact ⟨none, fields, rest, rfl, .single node tagged, further⟩
      · rintro ⟨item, inner, rest, rfl, held, further⟩
        obtain ⟨rfl, same, _⟩ := (held_alone_iff unlisted).mp held
        exact ⟨rest, rfl, inner, same, further⟩
    · rename_i bare
      apply Traces.nil
      rintro path visit ⟨item, inner, rest, rfl, held, further⟩
      obtain ⟨_, same, tagged⟩ := (held_alone_iff unlisted).mp held
      cases node.symm.trans same
      exact bare tagged

theorem visitsBelow_traces (parent : Option Fields)
    (each : ∀ field ∈ fields, ∀ place, Traces (Through fields place field)
      (visitsHeld fields field.2)) :
    Traces (fun path visit => path ≠ [] ∧ Reachable ⟨fields, parent⟩ path visit)
      (visitsBelow fields fields) := by
  rw [visitsBelow_eq]
  have row := Traces.row (Through fields) (by
    rintro place later less field other _ visit _ next ⟨item, _, rest, rfl, _⟩ ⟨index, _, more, rfl, _⟩
    exact .rel (.inl less)) each 0
  apply row.congr
  intro path visit
  constructor
  · rintro ⟨place, ⟨name, value⟩, held, item, inner, rest, rfl, step, further⟩
    rw [Nat.zero_add]
    exact ⟨by simp, .inside held step further⟩
  · rintro ⟨inside, reached⟩
    cases reached with
    | here => exact absurd rfl inside
    | @inside _ _ place value inner path field held further =>
      exact ⟨place.field, (place.name, value), field, place.item, inner, path,
        by rw [Nat.zero_add], held, further⟩

theorem node_traces
    (each : ∀ field ∈ fields, ∀ place, Traces (Through fields place field)
      (visitsHeld fields field.2)) :
    Traces (Reachable ⟨fields, parent⟩) (visitOf parent fields ++ visitsBelow fields fields) := by
  have here : Traces (fun path visit => path = [] ∧ visit = ⟨fields, parent⟩)
      (visitOf parent fields) := by
    unfold visitOf
    split
    · rename_i tagged
      refine ⟨[([], ⟨fields, parent⟩)], rfl, List.pairwise_singleton .., ?_⟩
      intro path visit
      rw [List.mem_singleton, Prod.mk.injEq]
      constructor
      · rintro ⟨rfl, rfl⟩
        exact ⟨⟨rfl, rfl⟩, tagged⟩
      · exact And.left
    · rename_i bare
      refine ⟨[], rfl, .nil, ?_⟩
      rintro path visit
      constructor
      · intro member
        cases member
      · rintro ⟨⟨rfl, rfl⟩, tagged⟩
        exact absurd tagged bare
  apply (here.append (visitsBelow_traces parent each) ?_).congr
  · intro path visit
    constructor
    · rintro (⟨rfl, rfl⟩ | ⟨_, reached⟩)
      · exact .here _
      · exact reached
    · intro reached
      cases reached with
      | here => exact .inl ⟨rfl, rfl⟩
      | inside field held further => exact .inr ⟨by simp, .inside field held further⟩
  · rintro _ visit path other ⟨rfl, _⟩ ⟨inside, _⟩
    exact Precedes.above [] inside

theorem other_traces (other : fields? value = none) :
    Traces (From parent value) (visits parent value) := by
  rw [visits_of_other other]
  apply Traces.nil
  rintro path visit ⟨fields, node, _⟩
  cases other.symm.trans node

theorem visits_traces (value : Value) (parent : Option Fields) :
    Traces (From parent value) (visits parent value) := by
  -- two layers: the items of a list lie in the value of a node's field
  induction value using Value.byLayers generalizing parent with
  | step value ih =>
    cases value with
    | mapping fields =>
      rw [visits]
      apply (node_traces ?_).congr
      · intro path visit
        simp [From, fields?]
      · rintro ⟨name, value⟩ member place
        obtain ⟨alone, items⟩ := ih value (List.mem_map_of_mem member)
        cases listed : value.items? with
        | none => exact visitsHeld_alone_traces place name listed (alone _)
        | some held =>
          apply visitsHeld_items_traces place name listed
          intro item inside
          exact items item (Value.items?_parts listed ▸ inside) _
    | deferred inner =>
      cases inner with
      | mapping fields =>
        rw [visits, ← visits]
        exact (ih (.mapping fields) (List.mem_singleton.mpr rfl)).1 parent
      | _ => exact other_traces rfl
    | _ => exact other_traces rfl

end Walk

/-- The walk visits the tagged nodes at the positions that can be reached from the root, each of
them once, in the order of their positions and with the node directly around it, if there is one;
what is collected are those of them that pass a test. -/
theorem walk_preorder (root : Value) :
    ∃ spots : List (List Place × Visit),
      walk root = spots.map Prod.snd ∧
      (spots.map Prod.fst).Pairwise Precedes ∧
      (spots.map Prod.fst).Nodup ∧
      (∀ path visit, (path, visit) ∈ spots ↔
        (∃ fields, fields? root = some fields ∧ Reachable ⟨fields, none⟩ path visit) ∧
          (tagOf visit.fields).isSome = true) ∧
      ∀ test, collect root test = (spots.map fun spot => spot.2.fields).filter test := by
  obtain ⟨spots, walked, sorted, spot⟩ := visits_traces root none
  refine ⟨spots, walked, sorted, ?_, spot, ?_⟩
  · apply sorted.imp
    intro path later before same
    rw [same] at before
    exact Precedes.irrefl later before
  · intro test
    rw [collect, walk, walked, List.map_map]
    rfl

end RailSpec.Node
