import RailSpec.Declaration
import RailSpec.Proofs.Node.Lookup

/-!
What readers take out of nodes. A property that nodes and values hand down to what they hold has all
that a reader of names, arguments, statements or options can come to, and every node that the walk
meets. A location is read for its offsets only, so nothing need be handed down to it as a value.
-/

namespace RailSpec.Node

/-- The names under which a node keeps its location. -/
def isLocationName (name : String) : Bool :=
  name = "location" || name = "loc"

variable {node : Fields → Prop} {holds : Value → Prop} {value : Value} {fields : Fields}
  {items : List Value} {names : List String} {name : String}

/-- What holds of nodes holds of the fields that a value gives, and what holds of values of its
items. -/
structure Opens (node : Fields → Prop) (holds : Value → Prop) (value : Value) : Prop where
  fields : ∀ {fields}, fields? value = some fields → node fields
  items : ∀ {items}, value.items? = some items → ∀ item ∈ items, holds item

/-- A property of nodes and one of values that are handed down to what they hold. -/
structure HandedDown (node : Fields → Prop) (holds : Value → Prop) : Prop where
  opens : ∀ {value}, holds value → Opens node holds value
  held : ∀ {fields field}, node fields → field ∈ fields → Opens node holds field.2
  field : ∀ {fields field}, node fields → field ∈ fields → isLocationName field.1 = false →
    holds field.2

/-- What holds of every item of a list, if there is a list. -/
def OfEach (holds : Value → Prop) (held : Option (List Value)) : Prop :=
  ∀ items, held = some items → ∀ item ∈ items, holds item

theorem OfEach.or {first second : Option (List Value)} (here : OfEach holds first)
    (there : OfEach holds second) : OfEach holds (first.or second) := by
  cases first with
  | none => exact there
  | some items => exact here

theorem OfEach.getD {held : Option (List Value)} (each : OfEach holds held) :
    ∀ item ∈ held.getD [], holds item := by
  cases held with
  | none => exact List.forall_mem_nil _
  | some items => exact each items rfl

theorem opens_mapping (whole : node fields) : Opens node holds (.mapping fields) := by
  constructor
  · rintro others ⟨⟩
    exact whole
  · rintro items ⟨⟩

namespace HandedDown

variable (down : HandedDown node holds)
include down

theorem value? (whole : node fields) (other : isLocationName name = false)
    (found : Fields.value? fields name = some value) : holds value :=
  down.field whole (Fields.mem_of_value? found) other

theorem firstOf (whole : node fields) (others : names.all fun name => !isLocationName name)
    (found : Node.firstOf fields names = some value) : holds value := by
  induction names with
  | nil => cases found
  | cons name rest ih =>
    rw [List.all_cons, Bool.and_eq_true] at others
    rw [Node.firstOf] at found
    split at found
    · exact ih others.2 found
    · exact ih others.2 found
    · rename_i held
      cases found
      exact down.value? whole (by simpa using others.1) held

theorem listField? (opens : Opens node holds value)
    (others : names.all fun name => !isLocationName name) :
    OfEach holds (Node.listField? value names) := by
  intro items found
  obtain ⟨held, named, inside⟩ := Option.bind_eq_some_iff.mp found
  obtain ⟨fields, here, first⟩ := Option.bind_eq_some_iff.mp named
  exact (down.opens (down.firstOf (opens.fields here) others first)).items inside

theorem heldItems (whole : node fields) (name : String) :
    OfEach holds ((Fields.value? fields name).bind Value.items?) := by
  intro items found
  obtain ⟨held, here, inside⟩ := Option.bind_eq_some_iff.mp found
  exact (down.held whole (Fields.mem_of_value? here)).items inside

theorem heldList (whole : node fields) (name : String)
    (others : names.all fun name => !isLocationName name) :
    OfEach holds ((Fields.value? fields name).bind (Node.listField? · names)) := by
  intro items found
  obtain ⟨held, here, inside⟩ := Option.bind_eq_some_iff.mp found
  exact down.listField? (down.held whole (Fields.mem_of_value? here)) others items inside

theorem arguments (opens : Opens node holds value) :
    ∀ argument ∈ Call.arguments value, holds argument := by
  unfold Call.arguments
  split
  · exact List.forall_mem_nil _
  · rename_i fields found
    have whole := opens.fields found
    exact ((down.heldItems whole _).or ((down.heldList whole _ rfl).or (down.heldItems whole _))).getD

theorem statements (opens : Opens node holds value) :
    ∀ statement ∈ Call.statements value, holds statement := by
  unfold Call.statements
  split
  · exact List.forall_mem_nil _
  · rename_i fields found
    have whole := opens.fields found
    exact ((down.heldItems whole _).or ((down.heldList whole _ rfl).or
      ((down.heldList whole _ rfl).or (down.heldList whole _ rfl)))).getD

theorem firstList? (whole : node fields) (names : List String) :
    OfEach holds (Options.firstList? fields names) := by
  induction names with
  | nil => exact nofun
  | cons name rest ih => exact (down.heldItems whole name).or ih

/-- The call of a block is in the block, or is the node around it. -/
theorem callOfBlock {block : Fields} {parent : Option Fields} (whole : node block)
    (around : ∀ fields ∈ parent, node fields)
    (found : Declaration.callOfBlock block parent = some value) : Opens node holds value := by
  unfold Declaration.callOfBlock at found
  split at found
  · rename_i given own
    cases found
    exact down.opens (down.firstOf whole rfl (Option.filter_eq_some_iff.mp own).1)
  · obtain ⟨fields, same, rfl⟩ := Option.map_eq_some_iff.mp found
    exact opens_mapping (around fields same)

end HandedDown

/-- A property of a visited node and of the node around it. -/
structure Visit.Holds (node : Fields → Prop) (visit : Visit) : Prop where
  itself : node visit.fields
  around : ∀ fields ∈ visit.parent, node fields

/-- What is met below a node's field is met in the nodes of a list there, or in the one node. -/
theorem mem_visitsHeld {owner : Fields} {visit : Visit} (member : visit ∈ visitsHeld owner value) :
    visit ∈ visits (some owner) value ∨
      ∃ items, value.items? = some items ∧ ∃ item ∈ items, visit ∈ visits (some owner) item := by
  cases listed : value.items? with
  | some items =>
    rw [visitsHeld_of_items listed] at member
    exact .inr ⟨items, rfl, List.mem_flatMap.mp member⟩
  | none =>
    cases node : Node.fields? value with
    | none =>
      rw [visitsHeld_of_other listed node] at member
      cases member
    | some fields =>
      rw [visitsHeld_of_fields node] at member
      split at member
      · exact .inl member
      · cases member

namespace HandedDown

theorem visitOf {parent : Option Fields} (whole : node fields)
    (around : ∀ fields ∈ parent, node fields) :
    ∀ visit ∈ Node.visitOf parent fields, visit.Holds node := by
  intro visit member
  rw [mem_visitOf member]
  exact ⟨whole, around⟩

variable (down : HandedDown node holds)
include down

/-- Wherever a property is handed down to, the walk meets only nodes that have it. -/
theorem visits (value : Value) {parent : Option Fields} (around : ∀ fields ∈ parent, node fields)
    (opens : Opens node holds value) : ∀ visit ∈ Node.visits parent value, visit.Holds node := by
  induction value using Value.byLayers generalizing parent with
  | step value ih =>
    intro visit member
    cases value with
    | mapping fields =>
      have whole := opens.fields rfl
      have owner : ∀ held ∈ some fields, node held := by
        rintro held ⟨⟩
        exact whole
      rw [Node.visits] at member
      rcases List.mem_append.mp member with here | below
      · exact visitOf whole around visit here
      · rw [visitsBelow_eq] at below
        obtain ⟨field, inside, held⟩ := List.mem_flatMap.mp below
        obtain ⟨value, parts⟩ := ih field.2 (List.mem_map_of_mem inside)
        have open' := down.held whole inside
        rcases mem_visitsHeld held with alone | ⟨items, list, item, listed, met⟩
        · exact value owner open' visit alone
        · have part : item ∈ field.2.parts := Value.items?_parts list ▸ listed
          exact parts item part owner (down.opens (open'.items list item listed)) visit met
    | deferred inner =>
      cases inner with
      | mapping fields =>
        rw [Node.visits, ← Node.visits] at member
        exact (ih (.mapping fields) (List.mem_singleton.mpr rfl)).1 around
          (opens_mapping (opens.fields rfl)) visit member
      | _ => cases member
    | _ => cases member

theorem walk {root : Value} (opens : Opens node holds root) :
    ∀ visit ∈ Node.walk root, visit.Holds node :=
  down.visits root nofun opens

end HandedDown

end RailSpec.Node
