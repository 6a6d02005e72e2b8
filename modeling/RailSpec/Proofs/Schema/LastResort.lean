import RailSpec.Proofs.Node.LastResort
import RailSpec.Proofs.Schema.Origin

/-!
Extraction and the source text. Of its source, extraction reads no more than the text of nodes
without structured data, so sources that agree there give the same schema, and the same fault.
-/

namespace RailSpec

open Source (AgreeAt AgreeInside bareSpans bareSpansBelow bareSpansInside agree_handedDown)

namespace Declaration

variable {first second : Source}

section Calls

variable {call : Value} (opens : AgreeInside first second call)
include opens

theorem firstName_same : firstName first call = firstName second call := by
  have each := (agree_handedDown first second).arguments opens
  unfold firstName
  split
  · rfl
  · rename_i named rest found
    rw [found] at each
    rw [(Literal.sameResolved (each named (List.mem_cons_self ..))).literal]

theorem enumValues_same : enumValues first call = enumValues second call := by
  have each := (agree_handedDown first second).arguments opens
  unfold enumValues
  split
  · rename_i name values rest found
    rw [found] at each
    exact Literal.arrayTexts_same (each values (by simp))
  · rfl

theorem callStatement_same : callStatement first call = callStatement second call := by
  have each := (agree_handedDown first second).arguments opens
  unfold callStatement
  rw [Call.name_same opens]
  cases found : Call.arguments call with
  | nil => rfl
  | cons named rest =>
    rw [found] at each
    obtain ⟨here, later⟩ := List.forall_mem_cons.mp each
    simp only [(Literal.sameResolved here).literal, Options.merged, Options.mergedInto_same later]

end Calls

theorem columnStatement_same {statement : Value}
    (agree : AgreeAt first second (bareSpans statement)) :
    columnStatement first statement = columnStatement second statement := by
  unfold columnStatement wordStatement
  rw [(Literal.sameResolved agree).literal,
    callStatement_same ((agree_handedDown first second).opens agree)]

theorem tableCall_same {node : Fields} {parent : Option Fields}
    (whole : AgreeAt first second (bareSpansBelow node))
    (around : ∀ fields ∈ parent, AgreeAt first second (bareSpansBelow fields)) :
    tableCall first node parent = tableCall second node parent := by
  unfold tableCall
  cases found : callOfBlock node parent with
  | none => rfl
  | some call =>
    have opens := (agree_handedDown first second).callOfBlock whole around found
    simp only [Call.name_same opens, firstName_same opens]

theorem enumCall_same {node : Fields} (whole : AgreeAt first second (bareSpansBelow node)) :
    enumCall first node = enumCall second node := by
  have opens : AgreeInside first second (.mapping node) := Node.opens_mapping whole
  simp only [enumCall, Call.name_same opens, firstName_same opens, enumValues_same opens]

end Declaration

namespace Schema

variable {first second : Source}

theorem columnsOfEach_same {statements : List Value}
    (agree : ∀ statement ∈ statements, AgreeAt first second (bareSpans statement)) :
    columnsOfEach first statements = columnsOfEach second statements := by
  induction statements with
  | nil => rfl
  | cons statement rest ih =>
    obtain ⟨here, later⟩ := List.forall_mem_cons.mp agree
    rw [columnsOfEach, columnsOfEach, Declaration.columnStatement_same here, ih later]

theorem declaredAt_same {visit : Node.Visit}
    (agree : visit.Holds fun fields => AgreeAt first second (bareSpansBelow fields)) :
    declaredAt first visit = declaredAt second visit := by
  have table := Declaration.tableCall_same agree.itself agree.around
  cases found : Declaration.tableCall second visit.fields visit.parent with
  | error fault => rw [declaredAt_fault found, declaredAt_fault (table.trans found)]
  | ok called =>
    cases called with
    | none =>
      rw [declaredAt_enum found, declaredAt_enum (table.trans found),
        Declaration.enumCall_same agree.itself]
    | some call =>
      have statements := (agree_handedDown first second).statements (Node.opens_mapping agree.itself)
      rw [declaredAt_columns found, declaredAt_columns (table.trans found),
        (Declaration.tableCall_named found).2, columnsOfEach_same statements]

theorem declaredIn_same {met : List Node.Visit}
    (agree : ∀ visit ∈ met, visit.Holds fun fields => AgreeAt first second (bareSpansBelow fields)) :
    declaredIn first met = declaredIn second met := by
  induction met with
  | nil => rfl
  | cons visit rest ih =>
    obtain ⟨here, later⟩ := List.forall_mem_cons.mp agree
    rw [declaredIn, declaredIn, declaredAt_same here, ih later]

/-- Two sources give the same schema, or the same fault, if they say the same at the offsets of every
node inside the tree that holds no literal, parts, elements or pairs. -/
theorem extract_lastResort {tree : Value} (agree : AgreeAt first second (bareSpansInside tree))
    (diagnostics : Diagnostics) : extract first tree diagnostics = extract second tree diagnostics := by
  have down := agree_handedDown first second
  have opens := Source.agreeInside agree
  rw [extract, extract, declaredIn_same (down.walk opens)]

/-- A table whose name is given, with offsets that are not read, and a column whose name is not. -/
def spannedTable : Value :=
  .mapping [("type", .text "CallNode"), ("name", .text "create_table"),
    ("arguments", .list [.mapping [("type", .text "StringNode"), ("value", .text "users"),
      ("location", .mapping [("startOffset", .int 4), ("endOffset", .int 9)])]]),
    ("block", .mapping [("type", .text "BlockNode"), ("body", .list [
      .mapping [("type", .text "CallNode"), ("name", .text "integer"),
        ("arguments", .list [.mapping [("type", .text "SymbolNode"),
          ("location", .mapping [("startOffset", .int 0), ("endOffset", .int 3)])]])]])])]

theorem extract_lastResort_spannedTable :
    bareSpansInside spannedTable = [(0, 3)] ∧
      AgreeAt (Source.ofString "age users") (Source.ofString "age") [(0, 3)] ∧
      extract (Source.ofString "age users") spannedTable {} =
        extract (Source.ofString "age") spannedTable {} ∧
      extract (Source.ofString "age") spannedTable {} =
        .ok ⟨[namedTable "users" [linkedColumn "age" "integer" []]], [], {}⟩ := by
  have spans : bareSpansInside spannedTable = [(0, 3)] := rfl
  have agree : AgreeAt (Source.ofString "age users") (Source.ofString "age") [(0, 3)] := by decide
  exact ⟨spans, agree, extract_lastResort (spans ▸ agree) {}, rfl⟩

end Schema

end RailSpec
