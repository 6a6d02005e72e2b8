import RailSpec.Proofs.Node.HandedDown
import RailSpec.Proofs.Node.Writable
import RailSpec.Proofs.Schema.Origin

/-!
When extraction gives a schema. Of a tree in which every integer can be written everything is read,
whatever its nodes are like, with one exception: a bare word in the block of a table in whose place
there is a list or a mapping.
-/

namespace RailSpec

namespace Value

variable {value : Value} {fields : Fields} {items : List Value}

theorem IsWritable.of_fields? (writable : value.IsWritable)
    (found : Node.fields? value = some fields) : (mapping fields).IsWritable := by
  cases value with
  | mapping held =>
    cases found
    exact writable
  | deferred inner =>
    have held := writable.part (List.mem_singleton.mpr rfl)
    cases inner with
    | mapping held =>
      cases found
      exact held
    | _ => cases found
  | _ => cases found

theorem IsWritable.of_items? (writable : value.IsWritable) (found : value.items? = some items) :
    ∀ item ∈ items, item.IsWritable := by
  intro item member
  rw [← items?_parts found] at member
  exact writable.part member

/-- That every integer can be written is handed down to all that a node holds. -/
theorem writable_handedDown :
    Node.HandedDown (fun fields => (mapping fields).IsWritable) IsWritable where
  opens writable := ⟨writable.of_fields?, writable.of_items?⟩
  held writable member :=
    have part := writable.part (List.mem_map_of_mem member)
    ⟨part.of_fields?, part.of_items?⟩
  field writable member _ := writable.part (List.mem_map_of_mem member)

/-- In all that a value gives, every integer can be written. -/
abbrev OpensWritable (value : Value) : Prop :=
  Node.Opens (fun fields => (mapping fields).IsWritable) IsWritable value

theorem IsWritable.opens (writable : value.IsWritable) : value.OpensWritable :=
  writable_handedDown.opens writable

end Value

namespace Literal

variable (source : Source)

theorem identifier_returns {value : Value} (writable : value.IsWritable) :
    Returns (identifier source value) fun _ => True := by
  unfold identifier
  split
  · exact .ok trivial
  · split
    · exact .ok trivial
    · rename_i fields found
      split
      · exact .ok trivial
      · exact (resolvesWritable source (writable.of_fields? found)).literal.map fun _ _ => trivial

theorem arrayTexts_returns {node : Value} (writable : node.IsWritable) :
    Returns (arrayTexts source node) fun _ => True := by
  unfold arrayTexts
  split
  · rename_i items found
    have held := Value.writable_handedDown.listField? writable.opens rfl items found
    have each := fun item member => resolvesWritable source (held item member)
    exact (resolveEach_returns each).map fun _ _ => trivial
  · exact .ok trivial

end Literal

namespace Call

theorem name_returns {call : Value} (opens : call.OpensWritable) (source : Source) :
    Returns (name source call) fun _ => True := by
  unfold name
  split
  · rename_i named found
    obtain ⟨fields, here, first⟩ := Option.bind_eq_some_iff.mp found
    exact Literal.identifier_returns source
      (Value.writable_handedDown.firstOf (opens.fields here) rfl first)
  · exact .ok trivial

end Call

namespace Options

variable (source : Source)

/-- The options of writable nodes are found, and every integer in them can be written. -/
theorem ofNode_returns {node : Value} (writable : node.IsWritable) :
    Returns (ofNode source node) fun options => ∀ field ∈ options, field.2.IsWritable := by
  unfold ofNode
  split
  · refine (Literal.resolvesWritable source writable).pair.map fun pair held field member => ?_
    exact held field (Option.mem_toList.mp member)
  · split
    · rename_i pairs found
      obtain ⟨fields, here, inside⟩ := Option.bind_eq_some_iff.mp found
      have each := Value.writable_handedDown.firstList? (writable.of_fields? here) _ pairs inside
      have resolves := fun item member => Literal.resolvesWritable source (each item member)
      exact Literal.resolveOptions_returns resolves (List.forall_mem_nil _)
    · exact .ok (List.forall_mem_nil _)

theorem mergedInto_returns {nodes : List Value} (each : ∀ node ∈ nodes, node.IsWritable)
    {options : Fields} (old : ∀ field ∈ options, field.2.IsWritable) :
    Returns (mergedInto source options nodes) fun options =>
      ∀ field ∈ options, field.2.IsWritable := by
  induction nodes generalizing options with
  | nil => exact .ok old
  | cons node rest ih =>
    obtain ⟨here, later⟩ := List.forall_mem_cons.mp each
    exact (ofNode_returns source here).bind fun more new => ih later (Fields.merge_writable old new)

end Options

namespace Declaration

variable (source : Source)

section Calls

variable {call : Value} (opens : call.OpensWritable)
include opens

theorem firstName_returns : Returns (firstName source call) fun _ => True := by
  have each := Value.writable_handedDown.arguments opens
  unfold firstName
  split
  · exact .ok trivial
  · rename_i first rest found
    rw [found] at each
    have here := each first (List.mem_cons_self ..)
    exact (Literal.resolvesWritable source here).literal.map fun _ _ => trivial

theorem enumValues_returns : Returns (enumValues source call) fun _ => True := by
  have each := Value.writable_handedDown.arguments opens
  unfold enumValues
  split
  · rename_i name values rest found
    rw [found] at each
    exact Literal.arrayTexts_returns source (each values (by simp))
  · exact .ok trivial

theorem callStatement_returns : Returns (callStatement source call) fun _ => True := by
  refine (Call.name_returns opens source).bind fun name _ => ?_
  split
  · exact .ok trivial
  · split
    · exact .ok trivial
    · have each := Value.writable_handedDown.arguments opens
      split
      · exact .ok trivial
      · rename_i first rest found
        rw [found] at each
        obtain ⟨here, later⟩ := List.forall_mem_cons.mp each
        refine (Literal.resolvesWritable source here).literal.bind fun literal _ => ?_
        split
        · exact .ok trivial
        · exact (Options.mergedInto_returns source later (List.forall_mem_nil _)).bind fun _ _ =>
            .ok trivial

end Calls

/-- Whether a block belongs to a table is always known, and the call is found with that block. -/
theorem tableCall_returns {node : Fields} {parent : Option Fields}
    (writable : (Value.mapping node).IsWritable)
    (around : ∀ fields ∈ parent, (Value.mapping fields).IsWritable) :
    Returns (tableCall source node parent) fun found => ∀ call ∈ found, call.block = node := by
  unfold tableCall
  split
  · split
    · exact .ok nofun
    · rename_i call found
      have held := Value.writable_handedDown.callOfBlock writable around found
      refine (Call.name_returns held source).bind fun name _ => ?_
      split
      · refine (firstName_returns source held).bind fun name _ => .ok fun call made => ?_
        obtain ⟨text, _, rfl⟩ := Option.map_eq_some_iff.mp made
        rfl
      · exact .ok nofun
  · exact .ok nofun

theorem enumCall_returns {node : Fields} (writable : (Value.mapping node).IsWritable) :
    Returns (enumCall source node) fun _ => True := by
  unfold enumCall
  split
  · refine (Call.name_returns writable.opens source).bind fun name _ => ?_
    split
    · refine (firstName_returns source writable.opens).bind fun name _ => ?_
      split
      · exact (enumValues_returns source writable.opens).bind fun values _ => .ok trivial
      · exact .ok trivial
    · exact .ok trivial
  · exact .ok trivial

/-- A bare word in whose place there is a list or a mapping: it has no literal of its own and no
parts, but elements or pairs. -/
def IsCompoundWord (statement : Value) : Prop :=
  ∃ fields, Node.fields? statement = some fields ∧ Node.tagOf fields = some "identifier" ∧
    Literal.heldValue? fields = none ∧ fields.items? "parts" = none ∧
    (fields.items? "elements" ≠ none ∨ fields.items? "pairs" ≠ none)

/-- What cannot be looked up among words. -/
def IsCompound : Value → Bool
  | .list _ | .mapping _ => true
  | _ => false

theorem isCompound_of_primitive {value : Value} (primitive : value.isPrimitive = true) :
    IsCompound value = false := by
  cases value with
  | list items => cases primitive
  | mapping fields => cases primitive
  | _ => rfl

theorem isCompound_recover (fields : Fields) :
    IsCompound ((source.recover fields).getD .null) = false := by
  rcases source.recover_cases fields with ⟨inner, same⟩ | ⟨truth, same⟩ | same
  all_goals
    rw [same]
    rfl

/-- A list or a mapping comes only of elements or pairs that nothing stands before. -/
theorem isCompound_resolve {fields : Fields} {literal : Value}
    (done : Literal.resolve source (.mapping fields) = .ok literal) :
    IsCompound literal = true ↔ Literal.heldValue? fields = none ∧ fields.items? "parts" = none ∧
      (fields.items? "elements" ≠ none ∨ fields.items? "pairs" ≠ none) := by
  rw [Literal.resolve_mapping] at done
  split at done
  · rename_i held
    cases done
    simp [held, isCompound_of_primitive (Option.filter_eq_some_iff.mp held).2]
  · rename_i held parts
    obtain ⟨text, _, rfl⟩ := map_ok done
    simp [parts, IsCompound]
  · rename_i held parts elements
    obtain ⟨values, _, rfl⟩ := map_ok done
    simp [held, parts, elements, IsCompound]
  · rename_i held parts elements pairs
    obtain ⟨options, _, rfl⟩ := map_ok done
    simp [held, parts, pairs, IsCompound]
  · rename_i held parts elements pairs
    cases done
    simp [elements, pairs, isCompound_recover]

theorem wordStatement_returns_iff {statement literal : Value}
    (done : Literal.resolve source statement = .ok literal) :
    (∃ found, wordStatement source statement = .ok found) ↔ IsCompound literal = false := by
  unfold wordStatement
  rw [done]
  cases literal <;> simp [IsCompound]

/-- A statement can be looked up unless it is a compound word. -/
theorem columnStatement_returns_iff {statement : Value} (writable : statement.IsWritable) :
    (∃ found, columnStatement source statement = .ok found) ↔ ¬ IsCompoundWord statement := by
  have other (apart : Node.tag? statement ≠ some "identifier") : ¬ IsCompoundWord statement := by
    rintro ⟨fields, found, word, _⟩
    exact apart (by rw [Node.tag?, found]; exact word)
  unfold columnStatement
  split
  · rename_i untagged
    exact iff_of_true ⟨none, rfl⟩ (other (by simp [untagged]))
  · rename_i tag tagged
    split
    · rename_i word
      -- only a bare word is looked up by what it stands for
      obtain ⟨fields, found, held⟩ := Option.bind_eq_some_iff.mp tagged
      have inner := writable.of_fields? found
      obtain ⟨literal, done, _⟩ := (Literal.resolvesWritable source inner).literal
      have compound := isCompound_resolve source done
      rw [wordStatement_returns_iff source ((Literal.resolve_fields source found).trans done),
        ← Bool.not_eq_true, compound]
      refine not_congr ⟨fun shape => ⟨fields, found, held.trans (congrArg some word), shape⟩, ?_⟩
      rintro ⟨others, same, _, shape⟩
      cases found.symm.trans same
      exact shape
    · rename_i apart
      have sound := other (by simp [tagged, apart])
      split
      · obtain ⟨found, done, _⟩ := callStatement_returns source writable.opens
        exact iff_of_true ⟨found, by rw [done]; rfl⟩ sound
      · exact iff_of_true ⟨none, rfl⟩ sound

end Declaration

theorem Node.walk_writable {root : Value} (writable : root.IsWritable) :
    ∀ visit ∈ Node.walk root, visit.Holds fun fields => (Value.mapping fields).IsWritable :=
  Value.writable_handedDown.walk writable.opens

namespace Schema

open Declaration (IsCompoundWord)
open Node (Visit)
open Value (writable_handedDown)

variable (source : Source)

theorem columnsOfEach_returns_iff (statements : List Value) :
    (∃ columns, columnsOfEach source statements = .ok columns) ↔ ∀ statement ∈ statements,
      ∃ found, Declaration.columnStatement source statement = .ok found := by
  induction statements with
  | nil => exact iff_of_true ⟨[], rfl⟩ (List.forall_mem_nil _)
  | cons statement rest ih =>
    rw [List.forall_mem_cons, ← ih, columnsOfEach]
    exact both_ok_iff

theorem declaredIn_returns_iff (met : List Visit) :
    (∃ declared, declaredIn source met = .ok declared) ↔
      ∀ visit ∈ met, ∃ found, declaredAt source visit = .ok found := by
  induction met with
  | nil => exact iff_of_true ⟨[], rfl⟩ (List.forall_mem_nil _)
  | cons visit rest ih =>
    rw [List.forall_mem_cons, ← ih, declaredIn]
    exact both_ok_iff

/-- A visited node is read unless it is the block of a table with a compound word in it. -/
theorem declaredAt_returns_iff {visit : Visit}
    (writable : visit.Holds fun fields => (Value.mapping fields).IsWritable) :
    (∃ found, declaredAt source visit = .ok found) ↔
      ∀ call, Declaration.tableCall source visit.fields visit.parent = .ok (some call) →
        ∀ statement ∈ Call.statements (.mapping call.block), ¬ IsCompoundWord statement := by
  obtain ⟨table, called, block⟩ :=
    Declaration.tableCall_returns source writable.itself writable.around
  rw [called]
  cases table with
  | none =>
    obtain ⟨enum, found, _⟩ := Declaration.enumCall_returns source writable.itself
    refine iff_of_true ?_ nofun
    rw [declaredAt, called, found]
    cases enum with
    | none => exact ⟨none, rfl⟩
    | some enum => exact ⟨_, rfl⟩
  | some call =>
    rw [declaredAt_columns called]
    have statements : ∀ statement ∈ Call.statements (.mapping call.block),
        statement.IsWritable := by
      rw [block call rfl]
      exact writable_handedDown.statements writable.itself.opens
    have columns := columnsOfEach_returns_iff source (Call.statements (.mapping call.block))
    constructor
    · rintro ⟨found, done⟩ other ⟨⟩ statement member
      obtain ⟨read, here, _⟩ := map_ok done
      rw [← Declaration.columnStatement_returns_iff source (statements statement member)]
      exact columns.mp ⟨read, here⟩ statement member
    · intro sound
      obtain ⟨read, here⟩ := columns.mpr fun statement member =>
        (Declaration.columnStatement_returns_iff source (statements statement member)).mpr
          (sound call rfl statement member)
      exact ⟨_, by rw [here]; rfl⟩

/-- Whatever options an extracted column has, every integer in them can be written. -/
theorem extract_options {tree : Value} (writable : tree.IsWritable) {diagnostics : Diagnostics}
    {schema : Schema} (found : extract source tree diagnostics = .ok schema) :
    ∀ table ∈ schema.tables, ∀ column ∈ table.columns, ∀ option ∈ column.options,
      option.2.IsWritable := by
  intro table member column held
  obtain ⟨visit, met, origin⟩ := (extract_origin found).column member held
  have opens := (Node.walk_writable writable visit met).itself.opens
  cases origin with
  | timestamp listed =>
    obtain ⟨name, _, rfl⟩ := List.mem_map.mp listed
    exact List.forall_mem_singleton.mpr (Value.isWritable_bool false)
  | call inside given =>
    obtain ⟨first, rest, arguments, merged⟩ := (Declaration.columnStatement_column given).merged
    have statement := writable_handedDown.statements opens _ inside
    have each := writable_handedDown.arguments statement.opens
    rw [arguments] at each
    obtain ⟨options, made, writable⟩ := Options.mergedInto_returns source
      (List.forall_mem_cons.mp each).2 (List.forall_mem_nil _)
    cases merged.symm.trans made
    exact writable

/-- Extraction gives a schema unless some table's block has a compound word in it, and a statement
is looked up unless it is one. -/
theorem extract_returns_iff {tree : Value} (writable : tree.IsWritable) (diagnostics : Diagnostics) :
    ((∃ schema, extract source tree diagnostics = .ok schema) ↔
      ∀ visit ∈ Node.walk tree, ∀ call,
        Declaration.tableCall source visit.fields visit.parent = .ok (some call) →
          ∀ statement ∈ Call.statements (.mapping call.block), ¬ IsCompoundWord statement) ∧
    ∀ statement : Value, statement.IsWritable →
      ((∃ found, Declaration.columnStatement source statement = .ok found) ↔
        ¬ IsCompoundWord statement) := by
  refine ⟨?_, fun statement => Declaration.columnStatement_returns_iff source⟩
  have visits := Node.walk_writable writable
  have each : (∀ visit ∈ Node.walk tree, ∃ found, declaredAt source visit = .ok found) ↔ _ :=
    forall₂_congr fun visit member => declaredAt_returns_iff source (visits visit member)
  rw [← each, ← declaredIn_returns_iff source (Node.walk tree)]
  constructor
  · rintro ⟨schema, done⟩
    obtain ⟨found, here, _⟩ := bind_ok done
    exact ⟨found, here⟩
  · rintro ⟨found, here⟩
    exact ⟨_, by rw [extract, here]; rfl⟩

/-- A bare word with a list in its place. -/
def listWord : Value :=
  .mapping [("type", .text "identifier"), ("elements", .list [])]

/-- The block of a table with such a word in it. -/
def listWordBlock : Fields :=
  [("type", .text "block"), ("body", .list [listWord])]

def listWordCall : Fields :=
  [("type", .text "call"), ("name", .text "create_table"), ("arguments", .list [.text "users"]),
    ("block", .mapping listWordBlock)]

theorem extract_listWord :
    extract (Source.ofString "") (.mapping listWordCall) {} = .error (.unhashable "list") ∧
      Declaration.columnStatement (Source.ofString "") listWord = .error (.unhashable "list") :=
  ⟨rfl, rfl⟩

theorem listWord_writable : listWord.IsWritable :=
  Value.isWritable_mapping (by simp [Value.isWritable_text, Value.isWritable_list])

theorem listWordCall_writable : (Value.mapping listWordCall).IsWritable := by
  have block : (Value.mapping listWordBlock).IsWritable := Value.isWritable_mapping
    (by simp [listWordBlock, Value.isWritable_text, Value.isWritable_list, listWord_writable])
  exact Value.isWritable_mapping
    (by simp [listWordCall, Value.isWritable_text, Value.isWritable_list, block])

theorem extract_returns_iff_listWord :
    (Value.mapping listWordCall).IsWritable ∧ IsCompoundWord listWord ∧
      ¬ ∃ schema, extract (Source.ofString "") (.mapping listWordCall) {} = .ok schema := by
  have compound : IsCompoundWord listWord := ⟨_, rfl, rfl, rfl, rfl, .inl nofun⟩
  refine ⟨listWordCall_writable, compound, fun read => ?_⟩
  have sound := (extract_returns_iff (Source.ofString "") listWordCall_writable {}).1.mp read
  have met : ⟨listWordBlock, some listWordCall⟩ ∈ Node.walk (.mapping listWordCall) :=
    List.mem_cons_of_mem _ (List.mem_cons_self ..)
  exact sound _ met ⟨"users", listWordBlock⟩ rfl listWord (List.mem_singleton.mpr rfl) compound

end Schema

end RailSpec
