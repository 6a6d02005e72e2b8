import RailSpec.Proofs.Node.Lookup
import RailSpec.Proofs.Schema.Walk

/-!
Extraction and the statements of a program. A block is matched through the node around it, but only
through fields that the list of statements is not in, so every statement yields what it yields as the
only one, in its place among the others. Extraction is a homomorphism on lists of statements, and
statements without calls and blocks in them yield nothing.
-/

namespace RailSpec

theorem Fields.value?_hole (before after : Fields) {name key : String} (held : Value)
    (other : key ≠ name) :
    value? (before ++ (name, held) :: after) key = value? (before ++ after) key := by
  induction before with
  | nil => rw [List.nil_append, List.nil_append, value?_cons, if_neg (Ne.symm other)]
  | cons field rest ih =>
    obtain ⟨first, value⟩ := field
    rw [List.cons_append, List.cons_append, value?_cons, value?_cons, ih]

namespace Node

variable {fields others : Fields} {names : List String}

theorem firstOf_congr (same : ∀ name ∈ names, Fields.value? fields name = Fields.value? others name) :
    firstOf fields names = firstOf others names := by
  induction names with
  | nil => rfl
  | cons name rest ih =>
    obtain ⟨here, later⟩ := List.forall_mem_cons.mp same
    rw [firstOf, firstOf, here, ih later]

end Node

namespace Schema

open Declaration (Fault hasTag blockTags callTags tableCall firstName)
open Node (Visit visits visitOf visitsBelow visitsEach visitsHeld tagOf)

/-! What a statement yields depends on the node around it by few of its fields. -/

/-- The fields of a node that tell what it calls. -/
def callNames : List String := ["name", "method", "identifier", "arguments", "args"]

/-- Two nodes call the same. -/
def CallsAlike (owner other : Fields) : Prop :=
  ∀ name ∈ callNames, Fields.value? owner name = Fields.value? other name

section Alike

variable (source : Source) {owner other : Fields} (alike : CallsAlike owner other)
include alike

theorem tableCall_alike (node : Fields) :
    tableCall source node (some owner) = tableCall source node (some other) := by
  have name : Call.name source (.mapping owner) = Call.name source (.mapping other) := by
    have same : Node.field? (.mapping owner) ["name", "method", "identifier"] =
        Node.field? (.mapping other) ["name", "method", "identifier"] :=
      Node.firstOf_congr fun name member => alike name (List.mem_append_left ["arguments", "args"] member)
    rw [Call.name, Call.name, same]
  have arguments : Call.arguments (.mapping owner) = Call.arguments (.mapping other) := by
    simp only [Call.arguments, Node.fields?, alike "arguments" (by decide), alike "args" (by decide)]
  unfold tableCall Declaration.callOfBlock
  cases (Node.firstOf node ["call", "statement", "target"]).filter Declaration.isGiven with
  | some call => rfl
  | none => simp only [Option.map_some, name, firstName, arguments]

theorem declaredIn_visits_alike (statement : Value) :
    declaredIn source (visits (some owner) statement) =
      declaredIn source (visits (some other) statement) := by
  have node (fields : Fields) : declaredIn source (visitOf (some owner) fields) =
      declaredIn source (visitOf (some other) fields) := by
    unfold visitOf
    split
    · simp only [declaredIn, declaredAt, tableCall_alike source alike]
    · rfl
  cases statement with
  | mapping fields => rw [visits, visits, declaredIn_append, declaredIn_append, node]
  | deferred inner =>
    cases inner with
    | mapping fields => rw [visits, visits, declaredIn_append, declaredIn_append, node]
    | _ => rfl
  | _ => rfl

theorem declaredIn_each_alike (statements : List Value) :
    declaredIn source (visitsEach owner statements) =
      declaredIn source (visitsEach other statements) := by
  induction statements with
  | nil => rfl
  | cons statement rest ih =>
    rw [visitsEach, visitsEach, declaredIn_append, declaredIn_append,
      declaredIn_visits_alike source alike, ih]

end Alike

/-! Programs: statements in nodes that are neither calls nor blocks. -/

/-- A node, as a mapping or given on demand, that holds something in one of its fields and besides
that no calls and no blocks. -/
structure Frame where
  before : Fields
  name : String
  after : Fields
  onDemand : Bool
  unread : name ∉ "type" :: "kind" :: callNames
  tagged : (tagOf (before ++ after)).isSome
  plain : hasTag blockTags (before ++ after) = false ∧ hasTag callTags (before ++ after) = false
  quiet : ∀ owner, Quiet (visitsBelow owner (before ++ after))

namespace Frame

variable (source : Source) (frame : Frame) (held : Value)

/-- The fields of the node without what it holds. -/
def around : Fields :=
  frame.before ++ frame.after

def holding : Fields :=
  frame.before ++ (frame.name, held) :: frame.after

def node : Value :=
  if frame.onDemand then .deferred (.mapping (frame.holding held)) else .mapping (frame.holding held)

theorem value?_holding {key : String} (read : key ∈ "type" :: "kind" :: callNames) :
    Fields.value? (frame.holding held) key = Fields.value? frame.around key := by
  refine Fields.value?_hole frame.before frame.after held ?_
  rintro rfl
  exact frame.unread read

theorem tagOf_holding : tagOf (frame.holding held) = tagOf frame.around := by
  rw [tagOf, tagOf, Node.text?, Node.text?, Node.text?, Node.text?,
    frame.value?_holding held (by decide), frame.value?_holding held (by decide)]

theorem callsAlike : CallsAlike (frame.holding held) frame.around :=
  fun _ member => frame.value?_holding held (List.mem_cons_of_mem _ (List.mem_cons_of_mem _ member))

theorem visits_node (parent : Option Fields) : visits parent (frame.node held) =
    visitOf parent (frame.holding held) ++ visitsBelow (frame.holding held) (frame.holding held) := by
  unfold node
  split <;> rw [visits]

theorem visitsHeld_node (owner : Fields) :
    visitsHeld owner (frame.node held) = visits (some owner) (frame.node held) := by
  have tagged : (tagOf (frame.holding held)).isSome := frame.tagOf_holding held ▸ frame.tagged
  rw [visits_node, visitOf, if_pos tagged]
  unfold node
  split <;> rw [visitsHeld, if_pos tagged, List.singleton_append]

theorem quiet_visitOf (parent : Option Fields) : Quiet (visitOf parent (frame.holding held)) := by
  intro visit member
  rw [Node.mem_visitOf member, hasTag, hasTag, frame.tagOf_holding held]
  exact frame.plain

/-- Of the node itself and its other fields nothing is declared. -/
theorem declaredIn_node (parent : Option Fields) : declaredIn source (visits parent (frame.node held)) =
    declaredIn source (visitsHeld (frame.holding held) held) := by
  let owner := frame.holding held
  have others := frame.quiet owner
  rw [Node.visitsBelow_eq, List.flatMap_append] at others
  have below : visitsBelow owner owner = (frame.before.flatMap fun field => visitsHeld owner field.2) ++
      (visitsHeld owner held ++ frame.after.flatMap fun field => visitsHeld owner field.2) := by
    rw [Node.visitsBelow_eq]
    exact List.flatMap_append
  rw [visits_node, declaredIn_before source (frame.quiet_visitOf held parent), below,
    declaredIn_before source fun visit member => others visit (List.mem_append_left _ member),
    declaredIn_after source fun visit member => others visit (List.mem_append_right _ member)]

end Frame

/-- A node with a list of statements, or a node around such a node. -/
inductive Program where
  | body (frame : Frame)
  | inside (frame : Frame) (program : Program)

namespace Program

variable (source : Source) (program : Program)

/-- A program with the given statements. -/
def node : Program → List Value → Value
  | .body frame, statements => frame.node (.list statements)
  | .inside frame program, statements => frame.node (program.node statements)

/-- The node around the statements, without them. -/
def owner : Program → Fields
  | .body frame => frame.around
  | .inside _ program => program.owner

theorem visitsHeld_node (owner : Fields) (statements : List Value) :
    visitsHeld owner (program.node statements) = visits (some owner) (program.node statements) := by
  cases program with
  | body frame => exact frame.visitsHeld_node _ owner
  | inside frame program => exact frame.visitsHeld_node _ owner

/-- What a program declares is what its statements do, seen from a node that does not hold them. -/
theorem declaredIn_node (statements : List Value) (parent : Option Fields) :
    declaredIn source (visits parent (program.node statements)) =
      declaredIn source (visitsEach program.owner statements) := by
  induction program generalizing parent with
  | body frame =>
    rw [node, frame.declaredIn_node source, visitsHeld, owner]
    exact declaredIn_each_alike source (frame.callsAlike _) statements
  | inside frame program ih =>
    rw [node, frame.declaredIn_node source, program.visitsHeld_node, owner]
    exact ih _

end Program

/-! Extraction from programs. -/

/-- The schema of some declared records. -/
def ofDeclared (diagnostics : Diagnostics) (declared : List Declared) : Schema :=
  ⟨declared.filterMap Declared.table?, declared.filterMap Declared.enum?, diagnostics⟩

section Extract

variable (source : Source) (program : Program) (diagnostics : Diagnostics)

theorem extract_node (statements : List Value) :
    extract source (program.node statements) diagnostics =
      (declaredIn source (visitsEach program.owner statements)).map (ofDeclared diagnostics) := by
  rw [← program.declaredIn_node source statements none, extract, Node.walk]
  cases declaredIn source (visits none (program.node statements)) <;> rfl

theorem extract_append (first second : List Value) :
    extract source (program.node (first ++ second)) diagnostics = do
      let before ← extract source (program.node first) diagnostics
      let after ← extract source (program.node second) diagnostics
      return ⟨before.tables ++ after.tables, before.enums ++ after.enums, diagnostics⟩ := by
  rw [extract_node, extract_node, extract_node, Node.visitsEach_eq, Node.visitsEach_eq,
    Node.visitsEach_eq, List.flatMap_append, declaredIn_append]
  cases declaredIn source (first.flatMap (visits (some program.owner))) with
  | error fault => rfl
  | ok found =>
    cases declaredIn source (second.flatMap (visits (some program.owner))) with
    | error fault => rfl
    | ok others =>
      change Except.ok (ofDeclared diagnostics (found ++ others)) = _
      rw [ofDeclared, List.filterMap_append, List.filterMap_append]
      rfl

theorem extract_quiet {statement : Value} (quiet : Quiet (Node.walk statement))
    (first second : List Value) :
    extract source (program.node (first ++ statement :: second)) diagnostics =
      extract source (program.node (first ++ second)) diagnostics := by
  have silent := quiet.of_fields (Node.visits_fields (some program.owner) none statement)
  rw [extract_node, extract_node, Node.visitsEach_eq, Node.visitsEach_eq, List.flatMap_append,
    List.flatMap_append, List.flatMap_cons, declaredIn_append source (first.flatMap _),
    declaredIn_append source (first.flatMap _), declaredIn_before source silent]

/-- The schema of a statement alone, if it can be read. -/
def contribution (statement : Value) : Schema :=
  (extract source (program.node [statement]) diagnostics).toOption.getD {}

theorem contribution_of_extract {statements : List Value} {schema : Schema}
    (found : extract source (program.node statements) diagnostics = .ok schema) :
    ∀ statement ∈ statements, extract source (program.node [statement]) diagnostics =
      .ok (contribution source program diagnostics statement) := by
  induction statements generalizing schema with
  | nil => exact List.forall_mem_nil _
  | cons statement rest ih =>
    rw [← List.singleton_append, extract_append] at found
    obtain ⟨here, alone, found⟩ := bind_ok found
    obtain ⟨later, others, _⟩ := bind_ok found
    refine List.forall_mem_cons.mpr ⟨?_, ih others⟩
    rw [contribution, alone]
    rfl

theorem extract_contributions {own : Value → Schema} {statements : List Value}
    (each : ∀ statement ∈ statements,
      extract source (program.node [statement]) diagnostics = .ok (own statement)) :
    extract source (program.node statements) diagnostics =
      .ok ⟨statements.flatMap fun statement => (own statement).tables,
        statements.flatMap fun statement => (own statement).enums, diagnostics⟩ := by
  induction statements with
  | nil =>
    rw [extract_node]
    rfl
  | cons statement rest ih =>
    obtain ⟨here, later⟩ := List.forall_mem_cons.mp each
    rw [← List.singleton_append, extract_append, here, ih later]
    rfl

/-- Extraction is a homomorphism on lists of statements: a list is read as its parts are, in their
order; if it is read at all, so is every statement of it alone, and any list of those statements is
read as their schemas one after the other; a statement in which there is no call and no block may
stand anywhere or be left out. -/
theorem extract_statements :
    (∀ first second : List Value,
      extract source (program.node (first ++ second)) diagnostics = do
        let before ← extract source (program.node first) diagnostics
        let after ← extract source (program.node second) diagnostics
        return ⟨before.tables ++ after.tables, before.enums ++ after.enums, diagnostics⟩) ∧
    (∀ statements schema, extract source (program.node statements) diagnostics = .ok schema →
      ∃ own : Value → Schema,
        (∀ statement ∈ statements,
          extract source (program.node [statement]) diagnostics = .ok (own statement)) ∧
        ∀ others ⊆ statements, extract source (program.node others) diagnostics =
          .ok ⟨others.flatMap fun statement => (own statement).tables,
            others.flatMap fun statement => (own statement).enums, diagnostics⟩) ∧
    ∀ statement, Quiet (Node.walk statement) → ∀ first second : List Value,
      extract source (program.node (first ++ statement :: second)) diagnostics =
        extract source (program.node (first ++ second)) diagnostics := by
  refine ⟨extract_append source program diagnostics, fun statements schema found => ?_,
    fun statement => extract_quiet source program diagnostics⟩
  have each := contribution_of_extract source program diagnostics found
  exact ⟨contribution source program diagnostics, each, fun others fewer =>
    extract_contributions source program diagnostics fun statement member =>
      each statement (fewer member)⟩

end Extract

/-- A mapping that has a tag and holds nothing else besides. -/
def Frame.ofTag (tag name : String) (unread : name ∉ "type" :: "kind" :: callNames)
    (plain : hasTag blockTags [("type", .text tag)] = false ∧
      hasTag callTags [("type", .text tag)] = false) : Frame where
  before := [("type", .text tag)]
  name := name
  after := []
  onDemand := false
  unread := unread
  tagged := rfl
  plain := plain
  quiet _ := nofun

/-- A program whose statements stand in a node of their own. -/
def nestedProgram : Program :=
  .inside (.ofTag "ProgramNode" "statements" (by decide) (by decide))
    (.body (.ofTag "StatementsNode" "body" (by decide) (by decide)))

def moodStatement : Value :=
  .mapping [("type", .text "CallNode"), ("name", .text "create_enum"),
    ("arguments", .list [.text "mood", .mapping [("elements", .list [.text "sad"])]])]

def wordStatement : Value :=
  .mapping [("type", .text "IdentifierNode"), ("name", .text "mood")]

theorem extract_statements_mood :
    extract (Source.ofString "") (nestedProgram.node [moodStatement, wordStatement]) {} =
        .ok ⟨[], [namedEnum "mood" ["sad"]], {}⟩ ∧
      (∃ own : Value → Schema,
        extract (Source.ofString "") (nestedProgram.node [moodStatement]) {} =
          .ok (own moodStatement) ∧
        extract (Source.ofString "") (nestedProgram.node [moodStatement, moodStatement]) {} =
          .ok ⟨(own moodStatement).tables ++ (own moodStatement).tables,
            (own moodStatement).enums ++ (own moodStatement).enums, {}⟩) ∧
      Quiet (Node.walk wordStatement) ∧
      extract (Source.ofString "") (nestedProgram.node [wordStatement, moodStatement]) {} =
        extract (Source.ofString "") (nestedProgram.node [moodStatement]) {} := by
  obtain ⟨_, each, silent⟩ := extract_statements (Source.ofString "") nestedProgram {}
  have found : extract (Source.ofString "") (nestedProgram.node [moodStatement, wordStatement]) {} =
      .ok ⟨[], [namedEnum "mood" ["sad"]], {}⟩ := rfl
  have quiet : Quiet (Node.walk wordStatement) := by
    intro visit member
    rw [List.mem_singleton.mp member]
    exact ⟨rfl, rfl⟩
  obtain ⟨own, alone, others⟩ := each _ _ found
  refine ⟨found, ⟨own, alone moodStatement (by simp), ?_⟩, quiet, silent _ quiet [] [moodStatement]⟩
  have twice := others [moodStatement, moodStatement] (by simp)
  simpa using twice

end Schema

end RailSpec
