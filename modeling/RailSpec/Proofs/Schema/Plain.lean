import RailSpec.Schema.Extract
import RailSpec.Proofs.Node.PlainRead
import RailSpec.Proofs.Result

/-!
Extraction from plain forms: every declaration is read off the plain form of a tree as it is read
off the tree.
-/

namespace RailSpec

open Node

namespace Declaration

variable {source : Source}

theorem hasTag_plain (tags : List String) (fields : Fields) :
    hasTag tags (plainNode fields) = hasTag tags fields := by
  rw [hasTag, hasTag, tagOf_plainNode]

theorem firstName_plain (call : Value) : firstName source (plain call) = firstName source call := by
  rw [firstName, firstName, Call.arguments_plain]
  cases Call.arguments call with
  | nil => rfl
  | cons first rest => simp only [List.map_cons, Literal.resolve_plain]

/-- A node that gives no fields counts as given, a mapping without fields does not. -/
theorem isGiven_plain (value : Value) : isGiven (plain value) = isGiven value := by
  cases value with
  | list items => rw [plain_list]; cases items <;> rfl
  | tuple items => rw [plain_tuple]; cases items <;> rfl
  | mapping fields =>
    rw [plain_mapping]
    cases fields with
    | nil => rfl
    | cons field rest =>
      cases held : plainNode (field :: rest) with
      | nil => exact absurd (plainNode_nil_iff.mp held) (by simp)
      | cons first others => rfl
  | deferred inner =>
    cases inner with
    | mapping fields =>
      by_cases filled : fields = []
      · subst filled
        rfl
      · rw [plain_deferred filled]
        cases held : plainNode fields with
        | nil => exact absurd (plainNode_nil_iff.mp held) filled
        | cons first others => rfl
    | _ => rfl
  | _ => rfl

theorem callOfBlock_plain (block : Fields) (parent : Option Fields) :
    callOfBlock (plainNode block) (parent.map plainNode) = (callOfBlock block parent).map plain := by
  rw [callOfBlock, callOfBlock, firstOf_plainNode rfl, filter_plain isGiven_plain]
  cases (firstOf block ["call", "statement", "target"]).filter isGiven with
  | some call => rfl
  | none =>
    cases parent with
    | none => rfl
    | some fields => exact congrArg some (plain_mapping fields).symm

/-- A table call with the plain form of its block. -/
def TableCall.plain (call : TableCall) : TableCall :=
  { call with block := plainNode call.block }

theorem tableCall_plain (node : Fields) (parent : Option Fields) :
    tableCall source (plainNode node) (parent.map plainNode) =
      (tableCall source node parent).map (Option.map TableCall.plain) := by
  rw [tableCall, tableCall, hasTag_plain, callOfBlock_plain]
  split
  · cases callOfBlock node parent with
    | none => rfl
    | some call =>
      simp only [Option.map_some, Call.name_plain, firstName_plain]
      cases Call.name source call with
      | error fault => rfl
      | ok named =>
        by_cases creates : named = some "create_table"
        · cases firstName source call with
          | error fault => simp [creates, bind, Except.bind, Except.map]
          | ok name => cases name <;> simp [creates, bind, Except.bind, Except.map, TableCall.plain,
              pure, Except.pure]
        · simp [creates, bind, Except.bind, Except.map, pure, Except.pure]
  · rfl

theorem enumValues_plain (call : Value) : enumValues source (plain call) = enumValues source call := by
  rw [enumValues, enumValues, Call.arguments_plain]
  match Call.arguments call with
  | [] | [_] => rfl
  | _ :: values :: _ => exact Literal.arrayTexts_plain values

theorem enumCall_plain (node : Fields) : enumCall source (plainNode node) = enumCall source node := by
  rw [enumCall, enumCall, hasTag_plain]
  simp only [← plain_mapping, Call.name_plain, firstName_plain, enumValues_plain]

theorem wordStatement_plain (statement : Value) :
    wordStatement source (plain statement) = wordStatement source statement := by
  rw [wordStatement, wordStatement, Literal.resolve_plain]

theorem callStatement_plain (statement : Value) :
    callStatement source (plain statement) = callStatement source statement := by
  rw [callStatement, callStatement, Call.name_plain, Call.arguments_plain]
  cases Call.arguments statement with
  | nil => rfl
  | cons first rest => simp only [List.map_cons, Literal.resolve_plain, Options.merged_plain]

theorem columnStatement_plain (statement : Value) :
    columnStatement source (plain statement) = columnStatement source statement := by
  rw [columnStatement, columnStatement, tag?_plain]
  simp only [wordStatement_plain, callStatement_plain]

end Declaration

namespace Schema

open Declaration (TableCall)

variable {source : Source}

theorem columnsOfEach_plain (statements : List Value) :
    columnsOfEach source (statements.map plain) = columnsOfEach source statements := by
  induction statements with
  | nil => rfl
  | cons statement rest ih =>
    rw [List.map_cons, columnsOfEach, columnsOfEach, Declaration.columnStatement_plain, ih]

theorem declaredAt_plain (visit : Visit) :
    declaredAt source visit.plain = declaredAt source visit := by
  rw [declaredAt, declaredAt, Visit.plain, Declaration.tableCall_plain, Declaration.enumCall_plain]
  cases Declaration.tableCall source visit.fields visit.parent with
  | error fault => rfl
  | ok found =>
    cases found with
    | none => rfl
    | some call =>
      have columns : columnsOfEach source (Call.statements (.mapping call.plain.block)) =
          columnsOfEach source (Call.statements (.mapping call.block)) := by
        rw [TableCall.plain, ← plain_mapping, Call.statements_plain, columnsOfEach_plain]
      simp only [Except.map, Option.map_some, ok_mapError, bind, Except.bind, columns]
      rfl

theorem declaredIn_plain (met : List Visit) :
    declaredIn source (met.map Visit.plain) = declaredIn source met := by
  induction met with
  | nil => rfl
  | cons visit rest ih => rw [List.map_cons, declaredIn, declaredIn, declaredAt_plain, ih]

theorem extract_plain (tree : Value) (diagnostics : Diagnostics) :
    extract source (plain tree) diagnostics = extract source tree diagnostics := by
  have same := visits_plain none tree
  rw [Option.map_none] at same
  rw [extract, extract, walk, walk, same, declaredIn_plain]

end Schema

end RailSpec
