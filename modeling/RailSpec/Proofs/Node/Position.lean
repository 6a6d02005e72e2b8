import RailSpec.Node.Walk

/-!
Positions of a walk. Beside the visits of a walk stand the ways to them: the names of the fields
and the places in lists that lead from the root to a node. The visits are those of the walk without
positions, and every position leads to the node that is visited there.
-/

namespace RailSpec.Node

/-- A step from a node to a node that it holds in a field, or in the list of a field. -/
inductive Step where
  | field (name : String)
  | item (name : String) (index : Nat)
  deriving DecidableEq, Repr

abbrev Position := List Step

/-- A visit with the position at which the walk makes it. -/
structure Spot where
  position : Position
  visit : Visit

/-- The same visit, seen from one step further out. -/
def Spot.under (step : Step) (spot : Spot) : Spot :=
  { spot with position := step :: spot.position }

mutual

/-- The visits of a node and of all below it, with their positions. -/
def spots (parent : Option Fields) : Value → List Spot
  | .mapping fields | .deferred (.mapping fields) =>
    (visitOf parent fields).map (Spot.mk []) ++ spotsBelow fields fields
  | _ => []

def spotsBelow (owner : Fields) : List (String × Value) → List Spot
  | [] => []
  | (name, value) :: rest => spotsHeld owner name value ++ spotsBelow owner rest

def spotsHeld (owner : Fields) (name : String) : Value → List Spot
  | .list items | .tuple items => spotsEach owner name 0 items
  | .mapping fields | .deferred (.mapping fields) =>
    if (tagOf fields).isSome then
      (⟨[], ⟨fields, some owner⟩⟩ :: spotsBelow fields fields).map (Spot.under (.field name))
    else []
  | _ => []

def spotsEach (owner : Fields) (name : String) (index : Nat) : List Value → List Spot
  | [] => []
  | item :: rest =>
    (spots (some owner) item).map (Spot.under (.item name index))
      ++ spotsEach owner name (index + 1) rest

end

theorem spotsHeld_text (owner : Fields) (name characters : String) :
    spotsHeld owner name (.text characters) = [] :=
  rfl

theorem spotsBelow_eq (owner : Fields) (fields : Fields) : spotsBelow owner fields =
    fields.flatMap fun field => spotsHeld owner field.1 field.2 := by
  induction fields with
  | nil => rfl
  | cons field rest ih =>
    obtain ⟨name, value⟩ := field
    rw [spotsBelow, ih, List.flatMap_cons]

/-- The positions at which the walk from a root makes visits, with the tags that it finds there, in
walking order. -/
def marks (root : Value) : List (Position × Option String) :=
  (spots none root).map fun spot => (spot.position, tagOf spot.visit.fields)

private theorem visit_under (step : Step) : Spot.visit ∘ Spot.under step = Spot.visit :=
  rfl

private theorem visit_here : Spot.visit ∘ Spot.mk [] = id :=
  rfl

mutual

/-- The visits of the spots are the visits of the walk. -/
theorem spots_visits (parent : Option Fields) : (value : Value) →
    (spots parent value).map Spot.visit = visits parent value
  | .mapping fields => by
    rw [spots, visits, List.map_append, spotsBelow_visits fields fields, List.map_map, visit_here,
      List.map_id]
  | .deferred (.mapping fields) => by
    rw [spots, visits, List.map_append, spotsBelow_visits fields fields, List.map_map, visit_here,
      List.map_id]
  | .null | .bool _ | .int _ | .float _ | .text _ | .list _ | .tuple _ | .object _ => rfl
  | .deferred .null | .deferred (.bool _) | .deferred (.int _) | .deferred (.float _)
  | .deferred (.text _) | .deferred (.list _) | .deferred (.tuple _) | .deferred (.deferred _)
  | .deferred (.object _) => rfl

theorem spotsBelow_visits (owner : Fields) : (fields : List (String × Value)) →
    (spotsBelow owner fields).map Spot.visit = visitsBelow owner fields
  | [] => rfl
  | (name, value) :: rest => by
    rw [spotsBelow, visitsBelow, List.map_append, spotsHeld_visits owner name value,
      spotsBelow_visits owner rest]

theorem spotsHeld_visits (owner : Fields) (name : String) : (value : Value) →
    (spotsHeld owner name value).map Spot.visit = visitsHeld owner value
  | .list items => by rw [spotsHeld, visitsHeld, spotsEach_visits owner name 0 items]
  | .tuple items => by rw [spotsHeld, visitsHeld, spotsEach_visits owner name 0 items]
  | .mapping fields => by
    rw [spotsHeld, visitsHeld]
    split
    · rw [List.map_map, visit_under, List.map_cons, spotsBelow_visits fields fields]
    · rfl
  | .deferred (.mapping fields) => by
    rw [spotsHeld, visitsHeld]
    split
    · rw [List.map_map, visit_under, List.map_cons, spotsBelow_visits fields fields]
    · rfl
  | .null | .bool _ | .int _ | .float _ | .text _ | .object _ => rfl
  | .deferred .null | .deferred (.bool _) | .deferred (.int _) | .deferred (.float _)
  | .deferred (.text _) | .deferred (.list _) | .deferred (.tuple _) | .deferred (.deferred _)
  | .deferred (.object _) => rfl

theorem spotsEach_visits (owner : Fields) (name : String) (index : Nat) : (items : List Value) →
    (spotsEach owner name index items).map Spot.visit = visitsEach owner items
  | [] => rfl
  | item :: rest => by
    rw [spotsEach, visitsEach, List.map_append, List.map_map, visit_under,
      spots_visits (some owner) item, spotsEach_visits owner name (index + 1) rest]

end

/-- The marks are those of the visits, in walking order. -/
theorem marks_tags (root : Value) :
    (marks root).map Prod.snd = (walk root).map fun visit => tagOf visit.fields := by
  rw [walk, ← spots_visits, marks, List.map_map, List.map_map]
  rfl

/-- A position leads from the fields of a node to those of a node further inside. -/
inductive Leads : Fields → Position → Fields → Prop where
  | here (fields : Fields) : Leads fields [] fields
  | field {fields inner last : Fields} {name : String} {value : Value} {rest : Position}
    (held : (name, value) ∈ fields) (node : fields? value = some inner)
    (further : Leads inner rest last) : Leads fields (.field name :: rest) last
  | item {fields inner last : Fields} {name : String} {value item : Value} {items : List Value}
    {index : Nat} {rest : Position} (held : (name, value) ∈ fields)
    (listed : value.items? = some items) (placed : items[index]? = some item)
    (node : fields? item = some inner) (further : Leads inner rest last) :
    Leads fields (.item name index :: rest) last

/-- A spot lies where its position leads. -/
def Spot.Lies (fields : Fields) (spot : Spot) : Prop :=
  Leads fields spot.position spot.visit.fields

private theorem lies_visitOf (parent : Option Fields) (fields : Fields) {spot : Spot}
    (member : spot ∈ (visitOf parent fields).map (Spot.mk [])) : spot.Lies fields := by
  obtain ⟨visit, visited, rfl⟩ := List.mem_map.mp member
  unfold visitOf at visited
  split at visited
  · cases List.mem_singleton.mp visited
    exact .here fields
  · cases visited

private theorem lies_held (owner : Fields) {fields : Fields} {name : String} {value : Value}
    (inside : (name, value) ∈ owner) (node : fields? value = some fields)
    (below : ∀ spot ∈ spotsBelow fields fields, spot.Lies fields) :
    ∀ spot ∈ (if (tagOf fields).isSome then
      (⟨[], ⟨fields, some owner⟩⟩ :: spotsBelow fields fields).map (Spot.under (.field name))
      else []), spot.Lies owner := by
  intro spot member
  split at member
  · obtain ⟨inner, met, rfl⟩ := List.mem_map.mp member
    apply Leads.field inside node
    rcases List.mem_cons.mp met with same | further
    · subst inner
      exact .here fields
    · exact below inner further
  · cases member

mutual

/-- The position of every spot leads to the node that is visited there. -/
theorem spots_lie (parent : Option Fields) : (value : Value) → ∀ spot ∈ spots parent value,
    ∃ fields, fields? value = some fields ∧ spot.Lies fields
  | .mapping fields, spot, member => by
    refine ⟨fields, rfl, ?_⟩
    rcases List.mem_append.mp member with here | below
    · exact lies_visitOf parent fields here
    · exact spotsBelow_lie fields fields (List.Subset.refl _) spot below
  | .deferred (.mapping fields), spot, member => by
    refine ⟨fields, rfl, ?_⟩
    rcases List.mem_append.mp member with here | below
    · exact lies_visitOf parent fields here
    · exact spotsBelow_lie fields fields (List.Subset.refl _) spot below
  | .null, _, member | .bool _, _, member | .int _, _, member | .float _, _, member
  | .text _, _, member | .list _, _, member | .tuple _, _, member | .object _, _, member
  | .deferred .null, _, member | .deferred (.bool _), _, member | .deferred (.int _), _, member
  | .deferred (.float _), _, member | .deferred (.text _), _, member
  | .deferred (.list _), _, member | .deferred (.tuple _), _, member
  | .deferred (.deferred _), _, member | .deferred (.object _), _, member => by cases member

theorem spotsBelow_lie (owner : Fields) : (fields : List (String × Value)) → fields ⊆ owner →
    ∀ spot ∈ spotsBelow owner fields, spot.Lies owner
  | [], _, _, member => by cases member
  | (name, value) :: rest, inside, spot, member => by
    rcases List.mem_append.mp member with held | later
    · exact spotsHeld_lie owner name value (inside (List.mem_cons_self ..)) spot held
    · exact spotsBelow_lie owner rest (fun field late => inside (List.mem_cons_of_mem _ late)) spot
        later

theorem spotsHeld_lie (owner : Fields) (name : String) : (value : Value) → (name, value) ∈ owner →
    ∀ spot ∈ spotsHeld owner name value, spot.Lies owner
  | .list items, inside, spot, member => by
    obtain ⟨index, item, fields, inner, rfl, placed, node, lies⟩ :=
      spotsEach_lie owner name 0 items spot member
    rw [Nat.zero_add]
    exact .item inside rfl placed node lies
  | .tuple items, inside, spot, member => by
    obtain ⟨index, item, fields, inner, rfl, placed, node, lies⟩ :=
      spotsEach_lie owner name 0 items spot member
    rw [Nat.zero_add]
    exact .item inside rfl placed node lies
  | .mapping fields, inside, spot, member => by
    exact lies_held owner inside rfl (spotsBelow_lie fields fields (List.Subset.refl _)) spot member
  | .deferred (.mapping fields), inside, spot, member => by
    exact lies_held owner inside rfl (spotsBelow_lie fields fields (List.Subset.refl _)) spot member
  | .null, _, _, member | .bool _, _, _, member | .int _, _, _, member | .float _, _, _, member
  | .text _, _, _, member | .object _, _, _, member | .deferred .null, _, _, member
  | .deferred (.bool _), _, _, member | .deferred (.int _), _, _, member
  | .deferred (.float _), _, _, member | .deferred (.text _), _, _, member
  | .deferred (.list _), _, _, member | .deferred (.tuple _), _, _, member
  | .deferred (.deferred _), _, _, member | .deferred (.object _), _, _, member => by cases member

theorem spotsEach_lie (owner : Fields) (name : String) (start : Nat) : (items : List Value) →
    ∀ spot ∈ spotsEach owner name start items, ∃ (index : Nat) (item : Value) (fields : Fields) (inner : Spot),
      spot = inner.under (.item name (start + index)) ∧ items[index]? = some item ∧
        fields? item = some fields ∧ inner.Lies fields
  | [], _, member => by cases member
  | item :: rest, spot, member => by
    rcases List.mem_append.mp member with here | later
    · obtain ⟨inner, met, rfl⟩ := List.mem_map.mp here
      obtain ⟨fields, node, lies⟩ := spots_lie (some owner) item inner met
      exact ⟨0, item, fields, inner, rfl, rfl, node, lies⟩
    · obtain ⟨index, held, fields, inner, rfl, placed, node, lies⟩ :=
        spotsEach_lie owner name (start + 1) rest spot later
      exact ⟨index + 1, held, fields, inner, by rw [Nat.add_right_comm, Nat.add_assoc], placed, node,
        lies⟩

end

end RailSpec.Node
