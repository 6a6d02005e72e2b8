import RailSpec.Declaration
import RailSpec.Schema

/-!
Extraction: one walk through a syntax tree that turns every declaration into a table or an enum, in
the order in which the walk meets them.
-/

namespace RailSpec.Schema

open Declaration (ColumnStatement Fault)

/-- The columns that a timestamps statement stands for. -/
def timestampColumns : List Column :=
  ["created_at", "updated_at"].map fun name =>
    { name := name, type := "datetime", options := [("null", .bool false)] }

def columnsOf : ColumnStatement → List Column
  | .timestamps => timestampColumns
  | .column name type options => [linkedColumn name type options]

/-- The columns of the statements of a block, in order. -/
def columnsOfEach (source : Source) : List Value → Except Fault (List Column)
  | [] => .ok []
  | statement :: rest => do
    let found ← Declaration.columnStatement source statement
    let columns ← columnsOfEach source rest
    return (found.map columnsOf).getD [] ++ columns

/-- A declaration that the walk turned into a record. -/
inductive Declared where
  | table (table : Table)
  | enum (enum : EnumType)

/-- What a visited node declares: a table if it is the block of one, else maybe an enum. -/
def declaredAt (source : Source) (visit : Node.Visit) : Except Fault (Option Declared) := do
  match ← (Declaration.tableCall source visit.fields visit.parent).mapError .digits with
  | some call =>
    let columns ← columnsOfEach source (Call.statements (.mapping call.block))
    return some (.table (namedTable call.name columns))
  | none =>
    match ← (Declaration.enumCall source visit.fields).mapError .digits with
    | some call => return some (.enum (namedEnum call.name call.values))
    | none => return none

/-- What the visited nodes declare, in order. -/
def declaredIn (source : Source) : List Node.Visit → Except Fault (List Declared)
  | [] => .ok []
  | visit :: rest => do
    let found ← declaredAt source visit
    let others ← declaredIn source rest
    return found.toList ++ others

def Declared.table? : Declared → Option Table
  | .table found => some found
  | .enum _ => none

def Declared.enum? : Declared → Option EnumType
  | .table _ => none
  | .enum found => some found

/-- The schema that a syntax tree declares. -/
def extract (source : Source) (tree : Value) (diagnostics : Diagnostics) :
    Except Fault Schema := do
  let declared ← declaredIn source (Node.walk tree)
  return ⟨declared.filterMap Declared.table?, declared.filterMap Declared.enum?, diagnostics⟩

end RailSpec.Schema
