import RailSpec.Proofs.Outline.Read
import RailSpec.Proofs.Schema.Walk

/-!
Extraction undoes the writing of outlines: from the syntax tree of an outline it takes exactly the
outline's tables and enums, through all calls around them and in their order.
-/

namespace RailSpec.Outline

open Schema (Declared Quiet declaredIn declaredAt)
open Node (visits visitsHeld visitsBelow visitsEach)

variable (source : Source) (method : String) (receiver : Value)
variable (arguments statements : List Value) (more owner : Fields)

/-! The walk below options. -/

private theorem visitsHeld_node (tag : String) (fields : Fields) :
    visitsHeld owner (node tag fields) = ⟨("type", .text tag) :: fields, some owner⟩ ::
      visitsBelow (("type", .text tag) :: fields) fields := by
  rw [node, visitsHeld, tagOf_typed]
  rfl

private theorem visits_node (tag : String) (fields : Fields) :
    visits (some owner) (node tag fields) = visitsHeld owner (node tag fields) := by
  rw [visitsHeld_node, node, visits, Node.visitOf, tagOf_typed]
  rfl

/-- A node at and below which the walk meets no call and no block. -/
structure Inert (value : Value) : Prop where
  tagged : ∃ tag fields, value = node tag fields
  quiet : ∀ owner, Quiet (visitsHeld owner value)

private theorem inert_node {tag : String} {fields : Fields}
    (plain : tag ∉ Declaration.blockTags ++ Declaration.callTags)
    (below : ∀ owner, Quiet (visitsBelow owner fields)) : Inert (node tag fields) := by
  refine ⟨⟨tag, fields, rfl⟩, ?_⟩
  intro owner
  simp only [List.mem_append, not_or] at plain
  rw [visitsHeld_node]
  intro visit member
  rcases List.mem_cons.mp member with here | later
  · subst visit
    simpa [Declaration.hasTag, tagOf_typed] using plain
  · exact below _ visit later

private theorem inert_leaf {tag name : String} {value : Value}
    (plain : tag ∉ Declaration.blockTags ++ Declaration.callTags)
    (empty : ∀ owner, visitsHeld owner value = []) : Inert (node tag [(name, value)]) :=
  inert_node plain fun owner => by simp [visitsBelow, empty, Quiet]

theorem quiet_each {items : List Value} (inert : ∀ item ∈ items, Inert item) :
    Quiet (visitsEach owner items) := by
  rw [Node.visitsEach_eq]
  intro visit member
  obtain ⟨item, held, met⟩ := List.mem_flatMap.mp member
  obtain ⟨⟨tag, fields, rfl⟩, quiet⟩ := inert item held
  rw [visits_node] at met
  exact quiet owner visit met

private theorem inert_list {tag name : String} {items : List Value}
    (plain : tag ∉ Declaration.blockTags ++ Declaration.callTags)
    (inert : ∀ item ∈ items, Inert item) : Inert (node tag [(name, .list items)]) := by
  refine inert_node plain fun owner => ?_
  simpa [visitsBelow, visitsHeld] using quiet_each owner inert

theorem inert_string (characters : String) : Inert (stringNode characters) :=
  inert_leaf (by decide) fun _ => rfl

mutual

theorem inert_literal : (literal : Literal) → Inert literal.node
  | .null => inert_leaf (by decide) fun _ => rfl
  | .truth true => inert_leaf (by decide) fun _ => rfl
  | .truth false => inert_leaf (by decide) fun _ => rfl
  | .int _ => inert_leaf (by decide) fun _ => rfl
  | .float _ => inert_leaf (by decide) fun _ => rfl
  | .text characters => inert_string characters
  | .array items => inert_list (by decide) (inert_literals items)

theorem inert_literals : (items : List Literal) → ∀ item ∈ Literal.nodes items, Inert item
  | [], _, member => by simp [Literal.nodes] at member
  | first :: rest, item, member => by
    rcases List.mem_cons.mp member with same | later
    · exact same ▸ inert_literal first
    · exact inert_literals rest item later

end

theorem inert_setting (setting : Setting) : Inert setting.node := by
  refine inert_node (by decide) fun owner => ?_
  have key : Inert (node "SymbolNode" [("value", .text setting.name)]) :=
    inert_leaf (by decide) fun _ => rfl
  have value := inert_literal setting.value
  simpa [visitsBelow] using (key.quiet owner).append (value.quiet owner)

theorem inert_hash (settings : List Setting) : Inert (hashNode settings) := by
  refine inert_list (by decide) fun item member => ?_
  obtain ⟨setting, _, rfl⟩ := List.mem_map.mp member
  exact inert_setting setting

theorem inert_arguments {arguments : List Value} (inert : ∀ item ∈ arguments, Inert item) :
    Inert (node "ArgumentsNode" [("arguments", .list arguments)]) :=
  inert_list (by decide) inert

/-! The walk through calls, blocks and whole outlines. -/

private theorem visitsHeld_tagged {tag : String} {fields : Fields}
    (tagged : Node.tagOf fields = some tag) :
    visitsHeld owner (.mapping fields) = ⟨fields, some owner⟩ :: visitsBelow fields fields := by
  rw [visitsHeld, tagged]
  rfl

private theorem visits_tagged {tag : String} {fields : Fields}
    (tagged : Node.tagOf fields = some tag) :
    visits (some owner) (.mapping fields) = visitsHeld owner (.mapping fields) := by
  rw [visitsHeld_tagged owner tagged, visits, Node.visitOf, tagged]
  rfl

private theorem visitsHeld_call :
    visitsHeld owner (.mapping (callFields method receiver arguments ++ more)) =
      let call := callFields method receiver arguments ++ more
      ⟨call, some owner⟩ :: (visitsHeld call receiver ++
        (visitsHeld call (node "ArgumentsNode" [("arguments", .list arguments)]) ++
          visitsBelow call more)) := by
  rw [visitsHeld_tagged owner (call_tag ..)]
  simp only [callFields, List.cons_append, List.nil_append, visitsBelow]
  rfl

private theorem visitsHeld_body :
    visitsHeld owner (.mapping (bodyFields statements)) =
      ⟨bodyFields statements, some owner⟩ :: visitsEach (bodyFields statements) statements := by
  rw [visitsHeld_tagged owner (body_tag ..)]
  simp [bodyFields, visitsBelow, visitsHeld]

private theorem visitsHeld_block :
    visitsHeld owner (.mapping (blockFields statements)) =
      ⟨blockFields statements, some owner⟩ ::
        visitsHeld (blockFields statements) (.mapping (bodyFields statements)) := by
  rw [visitsHeld_tagged owner (block_tag ..)]
  simp [blockFields, visitsBelow, visitsHeld]

/-- A call with inert arguments and no block declares what it declares itself. -/
theorem declaredIn_call {found : Option Declared} (inert : ∀ item ∈ arguments, Inert item)
    (quiet : ∀ owner, Quiet (visitsHeld owner receiver))
    (here : declaredAt source ⟨callFields method receiver arguments, some owner⟩ = .ok found) :
    declaredIn source (visitsHeld owner (.mapping (callFields method receiver arguments))) =
      .ok found.toList := by
  have shape := visitsHeld_call method receiver arguments [] owner
  simp only [List.append_nil, visitsBelow] at shape
  have below := Schema.declaredIn_quiet source
    ((quiet (callFields method receiver arguments)).append
      ((inert_arguments inert).quiet (callFields method receiver arguments)))
  rw [shape]
  simpa using Schema.declaredIn_cons_ok source here below

private theorem declaredIn_body {declared : List Declared}
    (inside : declaredIn source (visitsEach (bodyFields statements) statements) = .ok declared) :
    declaredIn source (visitsHeld owner (.mapping (bodyFields statements))) = .ok declared := by
  have here : declaredAt source ⟨bodyFields statements, some owner⟩ = .ok none := by
    apply Schema.declaredAt_quiet <;> rw [Declaration.hasTag, body_tag] <;> decide
  rw [visitsHeld_body]
  exact Schema.declaredIn_cons_ok source here inside

/-- A call with inert arguments and a block declares what the block declares, and then what stands
in the block. -/
theorem declaredIn_scope {found : Option Declared} {declared : List Declared}
    (inert : ∀ item ∈ arguments, Inert item) (other : method ≠ "create_enum")
    (here : declaredAt source ⟨blockFields statements,
      some (scopeFields method arguments statements)⟩ = .ok found)
    (inside : declaredIn source (visitsEach (bodyFields statements) statements) = .ok declared) :
    declaredIn source (visitsHeld owner (.mapping (scopeFields method arguments statements))) =
      .ok (found.toList ++ declared) := by
  have call : declaredAt source ⟨scopeFields method arguments statements, some owner⟩ = .ok none :=
    declaredAt_otherCall source method .null arguments _ _ other
  have before := Schema.declaredIn_quiet source
    ((inert_arguments inert).quiet (scopeFields method arguments statements))
  have block : declaredIn source (visitsHeld (scopeFields method arguments statements)
      (.mapping (blockFields statements))) = .ok (found.toList ++ declared) := by
    rw [visitsHeld_block]
    exact Schema.declaredIn_cons_ok source here (declaredIn_body source statements _ inside)
  have shape : visitsHeld owner (.mapping (scopeFields method arguments statements)) =
      ⟨scopeFields method arguments statements, some owner⟩ ::
        (visitsHeld (scopeFields method arguments statements)
          (node "ArgumentsNode" [("arguments", .list arguments)]) ++
            visitsHeld (scopeFields method arguments statements)
              (.mapping (blockFields statements))) := by
    rw [scopeFields, visitsHeld_call]
    simp only [visitsBelow, visitsHeld, List.nil_append, List.append_nil]
  have whole := Schema.declaredIn_cons_ok source call
    (Schema.declaredIn_append_ok source before block)
  rw [shape]
  exact whole

theorem declaredIn_statement (other : method ≠ "create_enum")
    (inert : ∀ item ∈ arguments, Inert item) :
    declaredIn source (visits (some owner) (.mapping (callFields method tableVariable arguments))) =
      .ok [] := by
  have receiver : Inert tableVariable := inert_leaf (by decide) fun _ => rfl
  have tag := call_tag method tableVariable arguments []
  have here := declaredAt_otherCall source method tableVariable arguments [] (some owner) other
  rw [List.append_nil] at tag here
  rw [visits_tagged owner tag]
  exact declaredIn_call source method tableVariable arguments owner inert receiver.quiet here

theorem declaredIn_line (line : Line) :
    declaredIn source (visits (some owner) line.node) = .ok [] := by
  cases line with
  | timestamps => exact declaredIn_statement source _ [] owner (by decide) (by simp)
  | column line =>
    have ordinary : line.type ≠ "create_enum" := by
      have outside := line.ordinary
      simp only [List.mem_cons, not_or] at outside
      exact outside.2.2.1
    refine declaredIn_statement source _ _ owner ordinary fun item member => ?_
    rcases List.mem_cons.mp member with same | later
    · exact same ▸ inert_string line.name
    · obtain ⟨settings, _, rfl⟩ := List.mem_map.mp later
      exact inert_hash settings

theorem declaredIn_lines (lines : List Line) :
    declaredIn source (visitsEach owner (lines.map Line.node)) = .ok [] := by
  induction lines with
  | nil => rfl
  | cons line rest ih =>
    rw [List.map_cons, visitsEach]
    exact Schema.declaredIn_append_ok source (declaredIn_line source owner line) ih

mutual

theorem declaredIn_entry (owner : Fields) : (entry : Entry) → ∃ declared,
    declaredIn source (visits (some owner) entry.node) = .ok declared ∧
      declared.filterMap Declared.table? = entry.tables ∧
      declared.filterMap Declared.enum? = entry.enums
  | .table name lines named => by
    have read := columnsOfEach_lines source lines
    have here := declaredAt_table source .null [stringNode name] (lines.map Line.node)
      [("block", .mapping (blockFields (lines.map Line.node)))] named rfl read
    have inert : ∀ item ∈ [stringNode name], Inert item := by
      simpa using inert_string name
    refine ⟨[.table (Schema.namedTable name (lines.flatMap Line.columns))], ?_, rfl, rfl⟩
    rw [Entry.node, visits_tagged owner (scope_tag ..)]
    exact declaredIn_scope source _ _ _ owner inert (by decide) here
      (declaredIn_lines source _ lines)
  | .enum name values named filled => by
    have here := declaredAt_enum source .null _ [] (some owner) named filled rfl
    have inert : ∀ item ∈ [stringNode name, arrayNode (values.map stringNode)], Inert item := by
      have array : Inert (arrayNode (values.map stringNode)) := by
        refine inert_list (by decide) fun item member => ?_
        obtain ⟨value, _, rfl⟩ := List.mem_map.mp member
        exact inert_string value
      simpa using ⟨inert_string name, array⟩
    have tag := call_tag "create_enum" .null [stringNode name, arrayNode (values.map stringNode)] []
    rw [List.append_nil] at here tag
    refine ⟨[.enum (Schema.namedEnum name values)], ?_, rfl, rfl⟩
    rw [Entry.node, visits_tagged owner tag]
    exact declaredIn_call source _ _ _ owner inert (fun _ => by simp [visitsHeld, Quiet]) here
  | .scope method arguments hashes body other => by
    simp only [List.mem_cons, List.not_mem_nil, or_false, not_or] at other
    obtain ⟨declared, inside, declaredTables, declaredEnums⟩ :=
      declaredIn_entries (bodyFields (Entry.nodes body)) body
    have here := declaredAt_otherBlock source method .null
      (Literal.nodes arguments ++ hashes.map hashNode) (Entry.nodes body)
      [("block", .mapping (blockFields (Entry.nodes body)))] other.1
    have inert : ∀ item ∈ Literal.nodes arguments ++ hashes.map hashNode, Inert item := by
      intro item member
      rcases List.mem_append.mp member with literal | hash
      · exact inert_literals arguments item literal
      · obtain ⟨settings, _, rfl⟩ := List.mem_map.mp hash
        exact inert_hash settings
    refine ⟨declared, ?_, declaredTables, declaredEnums⟩
    rw [Entry.node, visits_tagged owner (scope_tag ..)]
    exact declaredIn_scope source _ _ _ owner inert other.2 here inside

theorem declaredIn_entries (owner : Fields) : (entries : List Entry) → ∃ declared,
    declaredIn source (visitsEach owner (Entry.nodes entries)) = .ok declared ∧
      declared.filterMap Declared.table? = tables entries ∧
      declared.filterMap Declared.enum? = enums entries
  | [] => ⟨[], rfl, rfl, rfl⟩
  | entry :: rest => by
    obtain ⟨found, here, foundTables, foundEnums⟩ := declaredIn_entry owner entry
    obtain ⟨others, after, otherTables, otherEnums⟩ := declaredIn_entries owner rest
    refine ⟨found ++ others, ?_, ?_, ?_⟩
    · exact Schema.declaredIn_append_ok source here after
    · rw [List.filterMap_append, foundTables, otherTables, tables]
    · rw [List.filterMap_append, foundEnums, otherEnums, enums]

end

end RailSpec.Outline
