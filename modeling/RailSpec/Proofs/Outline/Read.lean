import RailSpec.Proofs.Node.Lookup
import RailSpec.Proofs.Outline
import RailSpec.Proofs.Result

/-!
How the parts of an outline's syntax tree are read: literals, options and statements give back what
they were written from, and of the nodes only a table's block and an enum's call declare something.
-/

namespace RailSpec.Outline

open Schema (Declared declaredAt columnsOfEach)

variable (source : Source)

/-! Literals and options. -/

private theorem resolve_leaf (tag : String) {value : Value} (primitive : value.isPrimitive = true) :
    Literal.resolve source (node tag [("value", value)]) = .ok value := by
  simp [node, Literal.resolve_mapping, Literal.heldValue?, Fields.value?_cons, Option.filter_some,
    primitive]

private theorem resolve_nullLeaf (tag : String) :
    Literal.resolve source (node tag [("value", .null)]) = .ok .null := by
  simp [node, Literal.resolve_mapping, Literal.heldValue?, Fields.items?_cons, Fields.value?_cons,
    Option.filter_some, Value.isPrimitive, Source.recover, Source.spanOf, Source.locationOf,
    Source.offsetUnder, Node.firstOf]

private theorem resolve_arrayNode (elements : List Value) :
    Literal.resolve source (arrayNode elements) =
      (Literal.resolveEach source elements).map .list := by
  simp [arrayNode, node, Literal.resolve_mapping, Literal.heldValue?, Fields.items?_cons,
    Fields.value?_cons, Value.items?]

theorem resolve_stringNode (characters : String) :
    Literal.resolve source (stringNode characters) = .ok (.text characters) :=
  resolve_leaf source "StringNode" rfl

mutual

theorem resolve_literal : (literal : Literal) →
    Literal.resolve source literal.node = .ok literal.value
  | .null => resolve_nullLeaf source "IntegerNode"
  | .truth true => resolve_leaf source "TrueNode" rfl
  | .truth false => resolve_leaf source "FalseNode" rfl
  | .int _ => resolve_leaf source "IntegerNode" rfl
  | .float _ => resolve_leaf source "IntegerNode" rfl
  | .text characters => resolve_stringNode source characters
  | .array items => by
    rw [Literal.node, resolve_arrayNode, resolve_literals items, Literal.value]
    rfl

theorem resolve_literals : (items : List Literal) →
    Literal.resolveEach source (Literal.nodes items) = .ok (Literal.values items)
  | [] => rfl
  | item :: rest => by
    rw [Literal.nodes, Literal.resolveEach, resolve_literal item, resolve_literals rest,
      Literal.values]
    rfl

end

theorem resolvePair_setting (setting : Setting) :
    Literal.resolvePair source setting.node = .ok (some setting.field) := by
  rw [Setting.node, node, Literal.resolvePair_node, resolve_leaf source "SymbolNode" rfl,
    resolve_literal]
  simp [Literal.pairOf, Value.nonEmptyText?, setting.named, bind, Except.bind, pure, Except.pure,
    Setting.field]

theorem resolveOptions_settings (options : Fields) (settings : List Setting) :
    Literal.resolveOptions source options (settings.map Setting.node) =
      .ok (Fields.merge options (settings.map Setting.field)) := by
  induction settings generalizing options with
  | nil => rfl
  | cons setting rest ih =>
    rw [List.map_cons, Literal.resolveOptions, resolvePair_setting]
    exact ih _

theorem ofNode_hash (settings : List Setting) :
    Options.ofNode source (hashNode settings) =
      .ok (Fields.merge [] (settings.map Setting.field)) := by
  rw [← resolveOptions_settings]
  rfl

theorem mergedInto_hashes (options : Fields) (hashes : List (List Setting)) :
    Options.mergedInto source options (hashes.map hashNode) =
      .ok (Fields.merge options (hashes.flatten.map Setting.field)) := by
  induction hashes generalizing options with
  | nil => rfl
  | cons settings rest ih =>
    rw [List.map_cons, Options.mergedInto, ofNode_hash, List.flatten_cons, List.map_append,
      Fields.merge_append, ← Fields.merge_merge options]
    exact ih _

/-! Calls and their blocks. -/

variable (method : String) (receiver : Value) (arguments statements : List Value) (more : Fields)

private theorem call_name :
    Call.name source (.mapping (callFields method receiver arguments ++ more)) =
      .ok (some method) := by
  simp [Call.name, Node.field?, Node.fields?, callFields, Node.firstOf, Fields.value?_cons,
    Literal.identifier]

private theorem call_arguments :
    Call.arguments (.mapping (callFields method receiver arguments ++ more)) = arguments := by
  simp [Call.arguments, Node.fields?, callFields, node, Node.listField?, Node.field?, Node.firstOf,
    Fields.value?_cons, Value.items?]

private theorem block_statements :
    Call.statements (.mapping (blockFields statements)) = statements := by
  simp [Call.statements, Node.fields?, blockFields, bodyFields, Node.listField?, Node.field?,
    Node.firstOf, Fields.value?_cons, Value.items?]

theorem tagOf_typed (tag : String) (fields : Fields) :
    Node.tagOf (("type", .text tag) :: fields) = some tag := by
  simp [Node.tagOf, Node.text?, Fields.value?_cons]

theorem call_tag :
    Node.tagOf (callFields method receiver arguments ++ more) = some "CallNode" :=
  tagOf_typed ..

theorem scope_tag :
    Node.tagOf (scopeFields method arguments statements) = some "CallNode" :=
  call_tag ..

private theorem firstName_string (characters : String) (filled : characters ≠ "")
    (rest : List Value) (first : arguments = stringNode characters :: rest) :
    Declaration.firstName source (.mapping (callFields method receiver arguments ++ more)) =
      .ok (some characters) := by
  rw [Declaration.firstName, call_arguments, first]
  simp [resolve_stringNode, Except.map, Value.nonEmptyText?, filled]

theorem columnName_unquoted {name : String} (unquoted : '"' ∉ name.toList) :
    Declaration.columnName name = name := by
  have kept : name.toList.filter (· ≠ '"') = name.toList := by
    apply List.filter_eq_self.mpr
    intro c member
    have different : c ≠ '"' := fun same => unquoted (same ▸ member)
    simpa using different
  rw [Declaration.columnName, kept, String.ofList_toList]

private theorem columnStatement_call :
    Declaration.columnStatement source (.mapping (callFields method receiver arguments)) =
      (Declaration.callStatement source (.mapping (callFields method receiver arguments))).mapError
        .digits := by
  have tag : Node.tag? (.mapping (callFields method receiver arguments)) = some "CallNode" := by
    simp [Node.tag?, Node.fields?, callFields, tagOf_typed]
  rw [Declaration.columnStatement, tag]
  rfl

theorem columnStatement_timestamps :
    Declaration.columnStatement source Line.timestamps.node = .ok (some .timestamps) := by
  have name := call_name source "timestamps" tableVariable [] []
  rw [List.append_nil] at name
  rw [Line.node, columnStatement_call, Declaration.callStatement, name]
  rfl

theorem columnStatement_column (line : ColumnLine) :
    Declaration.columnStatement source (Line.column line).node =
      .ok (some (.column line.name line.type line.options)) := by
  have name := call_name source line.type tableVariable
    (stringNode line.name :: line.hashes.map hashNode) []
  have arguments := call_arguments line.type tableVariable
    (stringNode line.name :: line.hashes.map hashNode) []
  have options : Options.merged source (line.hashes.map hashNode) = .ok line.options :=
    mergedInto_hashes source [] line.hashes
  have ordinary : line.type ≠ "timestamps" ∧ line.type ≠ "t.timestamps" := by
    have outside := line.ordinary
    simp only [List.mem_cons, not_or] at outside
    exact ⟨outside.1, outside.2.1⟩
  rw [List.append_nil] at name arguments
  rw [Line.node, columnStatement_call, Declaration.callStatement, name]
  simp [bind, Except.bind, pure, Except.pure, ok_mapError, Option.filter_some, line.typed,
    Declaration.timestampMethods, ordinary, arguments, resolve_stringNode, Value.nonEmptyText?,
    line.named, options, columnName_unquoted line.unquoted]

/-- Settings with distinct names are the options as they stand. -/
theorem ColumnLine.options_distinct {line : ColumnLine}
    (distinct : Fields.Distinct (line.hashes.flatten.map Setting.field)) :
    line.options = line.hashes.flatten.map Setting.field :=
  Fields.merge_nil distinct

theorem columnsOfEach_lines (lines : List Line) :
    columnsOfEach source (lines.map Line.node) = .ok (lines.flatMap Line.columns) := by
  induction lines with
  | nil => rfl
  | cons line rest ih =>
    rw [List.map_cons, columnsOfEach, ih]
    cases line with
    | timestamps =>
      rw [columnStatement_timestamps]
      rfl
    | column line =>
      rw [columnStatement_column]
      rfl

/-! What calls and blocks declare. -/

variable (parent : Option Fields)

theorem body_tag : Node.tagOf (bodyFields statements) = some "StatementsNode" :=
  tagOf_typed ..

theorem block_tag : Node.tagOf (blockFields statements) = some "BlockNode" :=
  tagOf_typed ..

private theorem call_noBlock :
    Declaration.hasTag Declaration.blockTags (callFields method receiver arguments ++ more) =
      false := by
  rw [Declaration.hasTag, call_tag]
  decide

private theorem call_isCall :
    Declaration.hasTag Declaration.callTags (callFields method receiver arguments ++ more) =
      true := by
  rw [Declaration.hasTag, call_tag]
  decide

private theorem declaredAt_call :
    declaredAt source ⟨callFields method receiver arguments ++ more, parent⟩ =
      ((Declaration.enumCall source (callFields method receiver arguments ++ more)).map fun call =>
        call.map fun call => Declared.enum (Schema.namedEnum call.name call.values)).mapError
          .digits := by
  rw [declaredAt, Declaration.tableCall, call_noBlock]
  cases Declaration.enumCall source (callFields method receiver arguments ++ more) with
  | error fault => rfl
  | ok call => cases call <;> rfl

theorem declaredAt_otherCall (other : method ≠ "create_enum") :
    declaredAt source ⟨callFields method receiver arguments ++ more, parent⟩ = .ok none := by
  rw [declaredAt_call, Declaration.enumCall, call_isCall]
  simp [call_name, bind, Except.bind, pure, Except.pure, other, Except.map, ok_mapError]

private theorem arrayTexts_strings {values : List String} (filled : "" ∉ values) :
    Literal.arrayTexts source (arrayNode (values.map stringNode)) = .ok values := by
  have each (values : List String) (filled : "" ∉ values) :
      (Literal.resolveEach source (values.map stringNode)).map
        (fun found => found.filterMap Value.nonEmptyText?) = .ok values := by
    induction values with
    | nil => rfl
    | cons value rest ih =>
      simp only [List.mem_cons, not_or] at filled
      have others := ih filled.2
      rw [List.map_cons, Literal.resolveEach, resolve_stringNode]
      cases found : Literal.resolveEach source (rest.map stringNode) with
      | error fault => simp [found, Except.map] at others
      | ok items =>
        simp only [found, Except.map, Except.ok.injEq] at others
        simp [bind, Except.bind, pure, Except.pure, Except.map, Value.nonEmptyText?,
          Ne.symm filled.1, others]
  have items : Node.listField? (arrayNode (values.map stringNode))
      ["elements", "args", "arguments", "items", "contents", "parts"] =
        some (values.map stringNode) := by
    simp [arrayNode, node, Node.listField?, Node.field?, Node.fields?, Node.firstOf,
      Fields.value?_cons, Value.items?]
  rw [Literal.arrayTexts, items]
  exact each values filled

theorem declaredAt_enum {name : String} {values : List String} (named : name ≠ "")
    (filled : "" ∉ values)
    (given : arguments = [stringNode name, arrayNode (values.map stringNode)]) :
    declaredAt source ⟨callFields "create_enum" receiver arguments ++ more, parent⟩ =
      .ok (some (.enum (Schema.namedEnum name values))) := by
  have first := firstName_string source "create_enum" receiver arguments more name named _ given
  have texts := arrayTexts_strings source filled
  rw [declaredAt_call, Declaration.enumCall, call_isCall]
  subst given
  simp [call_name, bind, Except.bind, pure, Except.pure, first, Except.map, ok_mapError,
    Declaration.enumValues, call_arguments, texts]

private theorem callOfBlock_parent (owner : Fields) :
    Declaration.callOfBlock (blockFields statements) (some owner) = some (.mapping owner) := by
  simp [Declaration.callOfBlock, blockFields, Node.firstOf, Fields.value?_cons]

private theorem block_isBlock :
    Declaration.hasTag Declaration.blockTags (blockFields statements) = true := by
  rw [Declaration.hasTag, block_tag]
  decide

private theorem block_noCall :
    Declaration.hasTag Declaration.callTags (blockFields statements) = false := by
  rw [Declaration.hasTag, block_tag]
  decide

theorem declaredAt_otherBlock (other : method ≠ "create_table") :
    declaredAt source ⟨blockFields statements,
      some (callFields method receiver arguments ++ more)⟩ = .ok none := by
  rw [declaredAt, Declaration.tableCall, block_isBlock, callOfBlock_parent]
  simp [call_name, bind, Except.bind, pure, Except.pure, other, ok_mapError,
    Declaration.enumCall, block_noCall]

theorem declaredAt_table {name : String} {rest : List Value} {columns : List Column}
    (named : name ≠ "") (given : arguments = stringNode name :: rest)
    (read : columnsOfEach source statements = .ok columns) :
    declaredAt source ⟨blockFields statements,
      some (callFields "create_table" receiver arguments ++ more)⟩ =
        .ok (some (.table (Schema.namedTable name columns))) := by
  have first := firstName_string source "create_table" receiver arguments more name named rest given
  rw [declaredAt, Declaration.tableCall, block_isBlock, callOfBlock_parent]
  simp [call_name, first, bind, Except.bind, pure, Except.pure, ok_mapError, block_statements,
    read]

end RailSpec.Outline
