import RailSpec.Proofs.Node.Options

/-!
Hash literals. A hash that holds its pairs under `pairs` stands for the options that it gives, at
every depth of hashes and arrays; one that holds them under `elements` gives the same options but
stands for a list.
-/

namespace RailSpec.Literal

open Number (DigitFault)
open Options (HoldsPairs pairFields readings isPair ofNode)

/-- A hash node: no pair itself, without a value or parts, and with pairs in just one field. -/
structure IsHash (node : Value) (name : String) (pairs : List Value) : Prop where
  noPair : isPair node = false
  given : ∃ fields, Node.fields? node = some fields ∧ HoldsPairs fields name pairs ∧
    heldValue? fields = none ∧ fields.items? "parts" = none

section Hash

variable (source : Source) {node : Value} {name : String} {pairs : List Value}

/-- The options of a hash do not depend on the field that holds its pairs. -/
theorem IsHash.ofNode_eq (hash : IsHash node name pairs) :
    ofNode source node = (readings source pairs).map Fields.latest := by
  obtain ⟨noPair, fields, given, holds, _, _⟩ := hash
  rw [Options.ofNode_hash source given noPair holds, funext Fields.merge_nil_eq_latest]

theorem IsHash.resolve_pairs (hash : IsHash node "pairs" pairs) :
    resolve source node = (ofNode source node).map .mapping := by
  rw [hash.ofNode_eq, ← funext Fields.merge_nil_eq_latest]
  obtain ⟨_, fields, given, holds, noValue, noParts⟩ := hash
  have noElements := holds.only "elements" (by decide) (by decide)
  rw [resolve_fields source given, resolve_mapping, noValue, noParts, noElements, holds.held]
  exact congrArg (Except.map Value.mapping) (Options.resolveOptions_eq source [] pairs)

theorem IsHash.resolve_elements (hash : IsHash node "elements" pairs) :
    resolve source node = (resolveEach source pairs).map .list := by
  obtain ⟨_, fields, given, holds, noValue, noParts⟩ := hash
  rw [resolve_fields source given, resolve_mapping, noValue, noParts, holds.held]

end Hash

/-- How a provider writes down hashes and arrays: their tags, and the field of a hash's pairs. -/
structure Convention where
  hashTag : String
  pairTag : String
  arrayTag : String
  field : String

def Convention.elements : Convention :=
  ⟨"HashNode", "AssocNode", "ArrayNode", "elements"⟩

def Convention.pairs : Convention :=
  ⟨"hash", "pair", "array", "pairs"⟩

/-- Hashes and arrays inside each other, around nodes of any kind. The keys of a hash are nodes. -/
inductive Nested where
  | leaf (node : Value)
  | array (items : List Nested)
  | hash (pairs : List (Value × Nested))

namespace Nested

variable (convention : Convention) (source : Source)

mutual

/-- The node of a nested literal. -/
def toNode : Nested → Value
  | .leaf node => node
  | .array items =>
    .mapping [("type", .text convention.arrayTag), ("elements", .list (toNodes items))]
  | .hash pairs =>
    .mapping [("type", .text convention.hashTag), (convention.field, .list (pairNodes pairs))]

def toNodes : List Nested → List Value
  | [] => []
  | item :: rest => toNode item :: toNodes rest

def pairNodes : List (Value × Nested) → List Value
  | [] => []
  | (key, value) :: rest =>
    .mapping [("type", .text convention.pairTag), ("key", key), ("value", toNode value)]
      :: pairNodes rest

end

mutual

/-- What a nested literal stands for: a hash for the last values of the names that its keys are. -/
def meaning : Nested → Except DigitFault Value
  | .leaf node => resolve source node
  | .array items => (meanings items).map .list
  | .hash pairs => (entries pairs).map fun entries => .mapping (Fields.latest entries)

def meanings : List Nested → Except DigitFault (List Value)
  | [] => .ok []
  | item :: rest => do
    let value ← meaning item
    let values ← meanings rest
    return value :: values

def entries : List (Value × Nested) → Except DigitFault Fields
  | [] => .ok []
  | (key, value) :: rest => do
    let entry ← pairOf (resolve source key) (meaning value)
    let others ← entries rest
    return entry.toList ++ others

end

/-- There is no hash in a literal, unless inside a leaf. -/
inductive HashFree : Nested → Prop where
  | leaf (node : Value) : HashFree (.leaf node)
  | array {items : List Nested} (each : ∀ item ∈ items, HashFree item) : HashFree (.array items)

end Nested

section Conventions

variable (source : Source) {convention : Convention}

theorem resolve_array (items : List Nested) :
    resolve source (Nested.toNode convention (.array items)) =
      (resolveEach source (Nested.toNodes convention items)).map .list := by
  simp [Nested.toNode, resolve_mapping, heldValue?, Fields.items?_cons, Fields.value?_cons,
    Value.items?]

theorem isHash_pairs (pairs : List (Value × Nested)) :
    IsHash (Nested.toNode .pairs (.hash pairs)) "pairs" (Nested.pairNodes .pairs pairs) := by
  refine ⟨rfl, _, rfl, ⟨by decide, rfl, ?_⟩, rfl, rfl⟩
  simp [pairFields, Fields.items?_cons, Convention.pairs]

theorem isHash_elements (pairs : List (Value × Nested)) :
    IsHash (Nested.toNode .elements (.hash pairs)) "elements"
      (Nested.pairNodes .elements pairs) := by
  refine ⟨rfl, _, rfl, ⟨by decide, rfl, ?_⟩, rfl, rfl⟩
  simp [pairFields, Fields.items?_cons, Convention.elements]

mutual

theorem resolve_toNode_pairs : (nested : Nested) →
    resolve source (nested.toNode .pairs) = nested.meaning source
  | .leaf node => by rw [Nested.toNode, Nested.meaning]
  | .array items => by
    rw [resolve_array, resolveEach_toNodes_pairs items, Nested.meaning]
  | .hash pairs => by
    have hash := isHash_pairs pairs
    rw [hash.resolve_pairs, hash.ofNode_eq, readings_pairNodes pairs, Nested.meaning]
    cases Nested.entries source pairs <;> rfl

theorem resolveEach_toNodes_pairs : (items : List Nested) →
    resolveEach source (Nested.toNodes .pairs items) = Nested.meanings source items
  | [] => rfl
  | item :: rest => by
    rw [Nested.toNodes, resolveEach, Nested.meanings, resolve_toNode_pairs item,
      resolveEach_toNodes_pairs rest]

theorem readings_pairNodes : (pairs : List (Value × Nested)) →
    readings source (Nested.pairNodes .pairs pairs) = Nested.entries source pairs
  | [] => rfl
  | (key, value) :: rest => by
    rw [Nested.pairNodes, readings, Nested.entries, readings_pairNodes rest, resolvePair_node,
      resolve_toNode_pairs value]

end

mutual

/-- With pairs under `elements` a literal keeps its meaning just if there is no hash in it. -/
theorem resolve_toNode_elements_iff : (nested : Nested) → {value : Value} →
    nested.meaning source = .ok value →
      (resolve source (nested.toNode .elements) = .ok value ↔ nested.HashFree)
  | .leaf node, value, stands => by
    rw [Nested.meaning] at stands
    rw [Nested.toNode]
    exact iff_of_true stands (.leaf node)
  | .array items, value, stands => by
    rw [Nested.meaning] at stands
    obtain ⟨values, each, rfl⟩ := map_ok stands
    have items_iff := resolveEach_toNodes_elements_iff items each
    rw [resolve_array]
    constructor
    · intro same
      obtain ⟨read, found, equal⟩ := map_ok same
      cases equal
      exact .array (items_iff.mp found)
    · intro free
      cases free with
      | array free =>
        rw [items_iff.mpr free]
        rfl
  | .hash pairs, value, stands => by
    rw [Nested.meaning] at stands
    obtain ⟨entries, _, rfl⟩ := map_ok stands
    apply iff_of_false
    · intro same
      rw [(isHash_elements pairs).resolve_elements] at same
      obtain ⟨values, _, equal⟩ := map_ok same
      cases equal
    · nofun

theorem resolveEach_toNodes_elements_iff : (items : List Nested) → {values : List Value} →
    Nested.meanings source items = .ok values →
      (resolveEach source (Nested.toNodes .elements items) = .ok values ↔
        ∀ item ∈ items, item.HashFree)
  | [], values, stands => by
    cases stands
    exact iff_of_true rfl (List.forall_mem_nil _)
  | item :: rest, values, stands => by
    rw [Nested.meanings] at stands
    obtain ⟨value, here, more⟩ := bind_ok stands
    obtain ⟨others, later, done⟩ := bind_ok more
    cases done
    have item_iff := resolve_toNode_elements_iff item here
    have rest_iff := resolveEach_toNodes_elements_iff rest later
    rw [Nested.toNodes, resolveEach, List.forall_mem_cons, ← item_iff, ← rest_iff]
    constructor
    · intro same
      obtain ⟨first, found, more⟩ := bind_ok same
      obtain ⟨read, foundRest, done⟩ := bind_ok more
      cases done
      exact ⟨found, foundRest⟩
    · rintro ⟨found, foundRest⟩
      rw [found, foundRest]
      rfl

end

end Conventions

/-- Hash literals of both conventions. With pairs under `pairs` they have their meaning, at every
depth; with pairs under `elements` they have it just if there is no hash in them at all. The options
of two hashes that hold the same pairs are the same, but only the hash with its pairs under `pairs`
stands for them: the other stands for the list of its pairs, read as nodes. -/
theorem hash_conventions (source : Source) :
    (∀ nested : Nested, resolve source (nested.toNode .pairs) = nested.meaning source) ∧
      (∀ (nested : Nested) (value : Value), nested.meaning source = .ok value →
        (resolve source (nested.toNode .elements) = .ok value ↔ nested.HashFree)) ∧
      ∀ (pairs : List Value) (node other : Value), IsHash node "elements" pairs →
        IsHash other "pairs" pairs →
        ofNode source node = ofNode source other ∧
          resolve source other = (ofNode source other).map .mapping ∧
          resolve source node = (resolveEach source pairs).map .list := by
  refine ⟨resolve_toNode_pairs source, ?_, ?_⟩
  · intro nested value
    exact resolve_toNode_elements_iff source nested
  · intro pairs node other hash otherHash
    exact ⟨(hash.ofNode_eq source).trans (otherHash.ofNode_eq source).symm,
      otherHash.resolve_pairs source, hash.resolve_elements source⟩

/-- The literal `{sizes: [{small: 1}]}`. -/
def sizes : Nested :=
  .hash [(.text "sizes", .array [.hash [(.text "small", .leaf (.mapping [("value", .int 1)]))]])]

def sizesValue : Value :=
  .mapping [("sizes", .list [.mapping [("small", .int 1)]])]

/-- The pair `a: 1` in a hash. -/
def hashOfPair (name : String) : Value :=
  .mapping [("type", .text "HashNode"),
    (name, .list [Options.pairNode (.text "a") (.int 1)])]

theorem hashOfPair_isHash {name : String} (known : name = "elements" ∨ name = "pairs") :
    IsHash (hashOfPair name) name [Options.pairNode (.text "a") (.int 1)] := by
  rcases known with rfl | rfl
  all_goals
    refine ⟨rfl, _, rfl, ⟨by decide, rfl, ?_⟩, rfl, rfl⟩
    simp [pairFields, Fields.items?_cons]

theorem hash_conventions_sizes :
    sizes.meaning (Source.ofString "") = .ok sizesValue ∧
      resolve (Source.ofString "") (sizes.toNode .pairs) = .ok sizesValue ∧
      resolve (Source.ofString "") (sizes.toNode .elements) ≠ .ok sizesValue ∧
      IsHash (hashOfPair "elements") "elements" [Options.pairNode (.text "a") (.int 1)] ∧
      IsHash (hashOfPair "pairs") "pairs" [Options.pairNode (.text "a") (.int 1)] ∧
      ofNode (Source.ofString "") (hashOfPair "elements") =
        ofNode (Source.ofString "") (hashOfPair "pairs") := by
  obtain ⟨meant, kept, both⟩ := hash_conventions (Source.ofString "")
  have stands : sizes.meaning (Source.ofString "") = .ok sizesValue := rfl
  have first := hashOfPair_isHash (.inl rfl)
  have second := hashOfPair_isHash (.inr rfl)
  refine ⟨stands, (meant sizes).trans stands, ?_, first, second, (both _ _ _ first second).1⟩
  intro same
  cases (kept sizes sizesValue stands).mp same

/-- Under `elements` the hash `{a: 1}` stands for a list of nothing. -/
theorem resolve_hashOfPair :
    resolve (Source.ofString "") (hashOfPair "elements") = .ok (.list [.null]) ∧
      resolve (Source.ofString "") (hashOfPair "pairs") = .ok (.mapping [("a", .int 1)]) ∧
      ofNode (Source.ofString "") (hashOfPair "elements") = .ok [("a", .int 1)] :=
  ⟨rfl, rfl, rfl⟩

end RailSpec.Literal
