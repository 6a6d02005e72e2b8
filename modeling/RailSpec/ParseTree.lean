/-!
Syntax trees as a grammar's parser builds them: every node has a kind and byte offsets, and may
stand in a named field of its parent.
-/

namespace RailSpec

/-- What a parser says about a single node. An unnamed node is punctuation or a keyword; a missing
one was put in to repair the text. -/
structure ParseTree.Label where
  kind : String
  start : Nat
  stop : Nat
  field : Option String := none
  named : Bool := true
  missing : Bool := false
  row : Nat := 0
  column : Nat := 0
  deriving DecidableEq, Repr, Inhabited

inductive ParseTree where
  | node (label : ParseTree.Label) (children : List ParseTree)
  deriving Inhabited

namespace ParseTree

def label : ParseTree → Label
  | .node label _ => label

def children : ParseTree → List ParseTree
  | .node _ children => children

/-- A node where the text has an error, or that stands for missing text. -/
def Label.isProblem (label : Label) : Bool :=
  label.missing || label.kind == "ERROR"

mutual

/-- Whether a tree has an error anywhere. -/
def hasError : ParseTree → Bool
  | .node label children => label.isProblem || anyError children

def anyError : List ParseTree → Bool
  | [] => false
  | tree :: rest => hasError tree || anyError rest

end

/-- An error in the text, with the kind of what is missing if the parser put something in. -/
structure Problem where
  row : Nat
  column : Nat
  missing : Option String
  deriving DecidableEq, Repr

/-- Lines and columns count from one. -/
def Problem.message (problem : Problem) : String :=
  "syntax error at line " ++ toString (problem.row + 1) ++ ", column "
    ++ toString (problem.column + 1)
    ++ (match problem.missing with
      | some kind => ": missing " ++ kind
      | none => "")

def Label.problem (label : Label) : Problem :=
  ⟨label.row, label.column, if label.missing then some label.kind else none⟩

/-- The stack with a node's children on it, pushed from the last to the first. -/
def pushed (children stack : List ParseTree) : List ParseTree :=
  children.reverse.foldl (fun stack child => child :: stack) stack

@[simp] theorem pushed_eq (children stack : List ParseTree) :
    pushed children stack = children ++ stack := by
  simp [pushed]

private theorem sizeOf_append_le (first second : List ParseTree) :
    sizeOf (first ++ second) ≤ sizeOf first + sizeOf second := by
  induction first with
  | nil => simp
  | cons tree rest ih =>
    simp only [List.cons_append, List.cons.sizeOf_spec]
    omega

/-- The problems of the trees on a stack. Nothing is looked for inside a problem, nor in a tree
without errors. -/
def problemsOn : List ParseTree → List Problem
  | [] => []
  | .node label children :: stack =>
    if label.isProblem then label.problem :: problemsOn stack
    else if hasError (.node label children) then problemsOn (pushed children stack)
    else problemsOn stack
termination_by stack => sizeOf stack
decreasing_by
  all_goals
    have fewer := sizeOf_append_le children stack
    simp only [pushed_eq, List.cons.sizeOf_spec, node.sizeOf_spec]
    omega

/-- The problems in a tree. -/
def problems (tree : ParseTree) : List Problem :=
  if hasError tree then problemsOn [tree] else []

end ParseTree

end RailSpec
