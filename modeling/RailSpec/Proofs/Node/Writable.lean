import RailSpec.Declaration
import RailSpec.Proofs.Node.Lookup
import RailSpec.Proofs.Value.Writable

/-!
Literals and options of nodes in which every integer can be written. They are always found, whatever
else the nodes are like, and every integer in them can be written too.
-/

namespace RailSpec

theorem Fields.put_writable {fields : Fields} {name : String} {value : Value}
    (each : ∀ field ∈ fields, field.2.IsWritable) (new : value.IsWritable) :
    ∀ field ∈ Fields.put fields name value, field.2.IsWritable := by
  intro field member
  rcases mem_put member with rfl | old
  · exact new
  · exact each field old

theorem Fields.merge_writable {fields later : Fields}
    (each : ∀ field ∈ fields, field.2.IsWritable) (new : ∀ field ∈ later, field.2.IsWritable) :
    ∀ field ∈ Fields.merge fields later, field.2.IsWritable := by
  induction later generalizing fields with
  | nil => exact each
  | cons field rest ih =>
    obtain ⟨here, others⟩ := List.forall_mem_cons.mp new
    exact ih (put_writable each here) others

namespace Literal

variable {source : Source} {items : List Value} {fields : Fields}

theorem recover_writable (fields : Fields) :
    ((source.recover fields).getD .null).IsWritable := by
  rcases source.recover_cases fields with ⟨inner, same⟩ | ⟨truth, same⟩ | same
  · rw [same]
    exact Value.isWritable_text inner
  · rw [same]
    exact Value.isWritable_bool truth
  · rw [same]
    exact Value.isWritable_null

theorem partsText_returns (each : ∀ part ∈ items, part.IsWritable) :
    Returns (partsText items) fun _ => True := by
  induction items with
  | nil => exact .ok trivial
  | cons part rest ih =>
    obtain ⟨here, later⟩ := List.forall_mem_cons.mp each
    have first : Returns (partText part) fun _ => True := by
      obtain ⟨text, written⟩ := Value.message_returns here
      cases part with
      | null => exact .ok trivial
      | _ => exact ⟨text, written, trivial⟩
    rw [partsText]
    exact first.bind fun text _ => (ih later).bind fun texts _ => .ok trivial

/-- What a value resolves to is found, by itself and as a pair, and can be written. -/
structure ResolvesWritable (source : Source) (value : Value) : Prop where
  literal : Returns (resolve source value) Value.IsWritable
  pair : Returns (resolvePair source value) fun pair => ∀ field ∈ pair, field.2.IsWritable

theorem resolveEach_returns (each : ∀ item ∈ items, ResolvesWritable source item) :
    Returns (resolveEach source items) fun values => ∀ value ∈ values, value.IsWritable := by
  induction items with
  | nil => exact .ok (List.forall_mem_nil _)
  | cons item rest ih =>
    obtain ⟨here, later⟩ := List.forall_mem_cons.mp each
    rw [resolveEach]
    exact here.literal.bind fun value first => (ih later).bind fun values others =>
      .ok (List.forall_mem_cons.mpr ⟨first, others⟩)

theorem resolveOptions_returns {options : Fields}
    (each : ∀ item ∈ items, ResolvesWritable source item) (old : ∀ field ∈ options, field.2.IsWritable) :
    Returns (resolveOptions source options items) fun found =>
      ∀ field ∈ found, field.2.IsWritable := by
  induction items generalizing options with
  | nil => exact .ok old
  | cons item rest ih =>
    obtain ⟨here, later⟩ := List.forall_mem_cons.mp each
    rw [resolveOptions]
    refine here.pair.bind fun pair writable => ?_
    cases pair with
    | none => exact ih later old
    | some pair => exact ih later (Fields.put_writable old (writable pair rfl))

theorem noPair_writable : ∀ field ∈ (none : Option (String × Value)), field.2.IsWritable := by
  intro field member
  cases member

/-- A pair is put together from a key and a value. -/
theorem pair_returns {key value : Except Number.DigitFault Value}
    (spelled : Returns key Value.IsWritable) (held : Returns value Value.IsWritable) :
    Returns (pairOf key value) fun pair => ∀ field ∈ pair, field.2.IsWritable := by
  refine spelled.bind fun literal _ => ?_
  split
  · refine held.bind fun value writable => .ok ?_
    rintro field ⟨⟩
    exact writable
  · exact .ok noPair_writable

theorem resolvesWritable_items {value : Value} (same : value.items? = some items)
    (each : ∀ item ∈ items, ResolvesWritable source item) : ResolvesWritable source value := by
  constructor
  · rw [resolve_items source same]
    exact (resolveEach_returns each).map fun _ => Value.isWritable_list
  · rw [resolvePair_items source same]
    split
    · rename_i key held
      exact pair_returns (each key (by simp)).literal (each held (by simp)).literal
    · exact .ok noPair_writable

section Mapping

variable (each : ∀ part ∈ (Value.mapping fields).parts, ResolvesWritable source part ∧
  ∀ inner ∈ part.parts, ResolvesWritable source inner)
include each

theorem resolvesWritable_mapping (writable : (Value.mapping fields).IsWritable) :
    ResolvesWritable source (.mapping fields) := by
  constructor
  · rw [resolve_mapping]
    split
    · rename_i held
      have inside := (Option.filter_eq_some_iff.mp held).1
      exact .ok (writable.part (Fields.held_of_value? inside))
    · rename_i parts
      have values := resolveEach_returns (Fields.forall_items each parts)
      have joined := values.bind fun _ => partsText_returns
      exact joined.map fun text _ => Value.isWritable_text text
    · rename_i elements
      have values := resolveEach_returns (Fields.forall_items each elements)
      exact values.map fun _ => Value.isWritable_list
    · rename_i pairs
      exact (resolveOptions_returns (Fields.forall_items each pairs) (List.forall_mem_nil _)).map
        fun _ => Value.isWritable_mapping
    · exact .ok (recover_writable fields)
  · have null : Returns (resolve source .null) Value.IsWritable := .ok Value.isWritable_null
    have given := Fields.forall_given (fun value member => (each value member).1.literal) null
    rw [resolvePair_mapping]
    exact pair_returns (given "key" "name") (given "value" "val")

end Mapping

/-- Whatever is writable resolves to something writable. -/
theorem resolvesWritable (source : Source) {value : Value} (writable : value.IsWritable) :
    ResolvesWritable source value := by
  -- two layers: the items of a list lie in the value of a node's field
  induction value using Value.byLayers with
  | step value ih =>
    have each (part : Value) (member : part ∈ value.parts) : ResolvesWritable source part ∧
        ∀ inner ∈ part.parts, ResolvesWritable source inner := by
      have held := writable.part member
      exact ⟨(ih part member).1 held, fun inner below =>
        (ih part member).2 inner below (held.part below)⟩
    cases value with
    | list items => exact resolvesWritable_items rfl fun item member => (each item member).1
    | tuple items => exact resolvesWritable_items rfl fun item member => (each item member).1
    | mapping fields => exact resolvesWritable_mapping each writable
    | deferred inner =>
      have held := (each inner (List.mem_singleton.mpr rfl)).1
      cases inner with
      | mapping fields => exact ⟨by rw [resolve_deferred]; exact held.literal,
          by rw [resolvePair_deferred]; exact held.pair⟩
      | _ => exact ⟨.ok Value.isWritable_null, .ok noPair_writable⟩
    | object attributes => exact ⟨.ok Value.isWritable_null, .ok noPair_writable⟩
    | _ => exact ⟨.ok writable, .ok noPair_writable⟩

end Literal

end RailSpec
