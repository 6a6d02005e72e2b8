import RailSpec.ParseTree

/-!
The problems of a parsed tree. The search with a stack finds the outermost nodes that are problems,
each of them once and from left to right.
-/

namespace RailSpec.ParseTree

/-- The node at the end of a way down, by the places of children of every kind. -/
def at? : ParseTree → List Nat → Option ParseTree
  | tree, [] => some tree
  | .node _ children, index :: path => children[index]?.bind (at? · path)

/-- A problem that lies inside no other. -/
structure IsOutermost (tree : ParseTree) (path : List Nat) (node : ParseTree) : Prop where
  found : tree.at? path = some node
  problem : node.label.isProblem = true
  alone : ∀ above below, path = above ++ below → below ≠ [] → ∀ higher,
    tree.at? above = some higher → higher.label.isProblem = false

mutual

/-- The outermost problems, with the ways to them. -/
def outermost : ParseTree → List (List Nat × ParseTree)
  | .node label children =>
    if label.isProblem then [([], .node label children)] else outermostEach 0 children

def outermostEach (index : Nat) : List ParseTree → List (List Nat × ParseTree)
  | [] => []
  | tree :: rest =>
    ((outermost tree).map fun spot => (index :: spot.1, spot.2)) ++ outermostEach (index + 1) rest

end

section Search

/-- What a tree reports: its outermost problems. -/
def reports (tree : ParseTree) : List Problem :=
  (outermost tree).map fun spot => spot.2.label.problem

theorem outermostEach_reports (index : Nat) (children : List ParseTree) :
    (outermostEach index children).map (fun spot => spot.2.label.problem) =
      children.flatMap reports := by
  induction children generalizing index with
  | nil => rfl
  | cons child rest ih =>
    rw [outermostEach, List.map_append, List.map_map, ih, List.flatMap_cons]
    rfl

theorem reports_node (label : Label) (children : List ParseTree) :
    reports (.node label children) =
      if label.isProblem then [label.problem] else children.flatMap reports := by
  rw [reports, outermost]
  split
  · rfl
  · exact outermostEach_reports 0 children

mutual

theorem reports_eq_nil_iff : (tree : ParseTree) → (reports tree = [] ↔ hasError tree = false)
  | .node label children => by
    rw [reports_node, hasError]
    split
    · rename_i problem
      simp [problem]
    · rename_i sound
      simpa [sound] using flatMap_reports_eq_nil_iff children

theorem flatMap_reports_eq_nil_iff : (children : List ParseTree) →
    (children.flatMap reports = [] ↔ anyError children = false)
  | [] => by simp [anyError]
  | tree :: rest => by
    rw [List.flatMap_cons, List.append_eq_nil_iff, reports_eq_nil_iff tree,
      flatMap_reports_eq_nil_iff rest, anyError, Bool.or_eq_false_iff]

end

/-- The loop's invariant: what is left to report are the reports of the trees on the stack. -/
theorem problemsOn_eq (stack : List ParseTree) : problemsOn stack = stack.flatMap reports := by
  fun_induction problemsOn stack with
  | case1 => rfl
  | case2 label children stack problem ih =>
    rw [ih, List.flatMap_cons, reports_node, if_pos problem]
    rfl
  | case3 label children stack sound error ih =>
    -- the children take their parent's place, the leftmost on top
    rw [ih, pushed_eq, List.flatMap_append, List.flatMap_cons, reports_node, if_neg sound]
  | case4 label children stack sound clean ih =>
    have silent := (reports_eq_nil_iff (.node label children)).mpr (Bool.eq_false_iff.mpr clean)
    rw [ih, List.flatMap_cons, silent, List.nil_append]

theorem problems_eq (tree : ParseTree) : tree.problems = reports tree := by
  unfold problems
  split
  · rw [problemsOn_eq, List.flatMap_singleton]
  · rename_i clean
    exact ((reports_eq_nil_iff tree).mpr (Bool.eq_false_iff.mpr clean)).symm

end Search

section Outermost

variable {label : Label} {children : List ParseTree} {node : ParseTree} {index : Nat}
  {path : List Nat}

theorem isOutermost_here :
    IsOutermost (.node label children) [] node ↔
      node = .node label children ∧ label.isProblem = true := by
  constructor
  · intro outer
    obtain ⟨found, problem, _⟩ := outer
    cases found
    exact ⟨rfl, problem⟩
  · rintro ⟨rfl, problem⟩
    refine ⟨rfl, problem, ?_⟩
    intro above below whole inside
    exact absurd (List.append_eq_nil_iff.mp whole.symm).2 inside

theorem isOutermost_below :
    IsOutermost (.node label children) (index :: path) node ↔
      label.isProblem = false ∧ ∃ child, children[index]? = some child ∧
        IsOutermost child path node := by
  constructor
  · intro outer
    obtain ⟨child, held, found⟩ := Option.bind_eq_some_iff.mp outer.found
    have sound := outer.alone [] (index :: path) rfl (by simp) _ rfl
    refine ⟨sound, child, held, found, outer.problem, ?_⟩
    intro above below whole inside higher there
    apply outer.alone (index :: above) below (by rw [whole, List.cons_append]) inside higher
    rw [at?, held]
    exact there
  · rintro ⟨sound, child, held, outer⟩
    refine ⟨by rw [at?, held]; exact outer.found, outer.problem, ?_⟩
    intro above below whole inside higher there
    cases above with
    | nil =>
      cases there
      exact sound
    | cons first above =>
      obtain ⟨rfl, rest⟩ := List.cons.inj whole
      rw [at?, held] at there
      exact outer.alone above below rest inside higher there

mutual

theorem mem_outermost_iff (path : List Nat) (node : ParseTree) : (tree : ParseTree) →
    ((path, node) ∈ outermost tree ↔ IsOutermost tree path node)
  | .node label children => by
    rw [outermost]
    split
    · rename_i problem
      cases path with
      | nil => simp [isOutermost_here, problem]
      | cons index path => simp [isOutermost_below, problem]
    · rename_i sound
      rw [mem_outermostEach_iff path node 0 children]
      cases path with
      | nil => simp [isOutermost_here, sound]
      | cons index path =>
        rw [isOutermost_below, Bool.eq_false_iff]
        constructor
        · rintro ⟨place, rest, child, same, held, outer⟩
          rw [Nat.zero_add] at same
          cases same
          exact ⟨sound, child, held, outer⟩
        · rintro ⟨_, child, held, outer⟩
          exact ⟨index, path, child, by rw [Nat.zero_add], held, outer⟩

theorem mem_outermostEach_iff (path : List Nat) (node : ParseTree) (start : Nat) :
    (children : List ParseTree) → ((path, node) ∈ outermostEach start children ↔
      ∃ index rest child, path = (start + index) :: rest ∧ children[index]? = some child ∧
        IsOutermost child rest node)
  | [] => by simp [outermostEach]
  | tree :: others => by
    rw [outermostEach, List.mem_append, mem_outermostEach_iff path node (start + 1) others]
    constructor
    · rintro (first | ⟨index, rest, child, rfl, held, outer⟩)
      · obtain ⟨⟨way, found⟩, member, same⟩ := List.mem_map.mp first
        cases same
        exact ⟨0, way, tree, rfl, rfl, (mem_outermost_iff way found tree).mp member⟩
      · exact ⟨index + 1, rest, child, by rw [Nat.add_right_comm, Nat.add_assoc], held, outer⟩
    · rintro ⟨index, rest, child, rfl, held, outer⟩
      cases index with
      | zero =>
        cases held
        left
        exact List.mem_map.mpr ⟨(rest, node), (mem_outermost_iff rest node tree).mpr outer, rfl⟩
      | succ index =>
        right
        exact ⟨index, rest, child, by rw [Nat.add_right_comm, Nat.add_assoc], held, outer⟩

end

/-- The order of the text: of two ways, that is earlier which turns to the left first, or ends
first. -/
def Earlier : List Nat → List Nat → Prop :=
  List.Lex (· < ·)

mutual

theorem outermost_sorted : (tree : ParseTree) → ((outermost tree).map Prod.fst).Pairwise Earlier
  | .node label children => by
    rw [outermost]
    split
    · exact List.pairwise_singleton ..
    · exact outermostEach_sorted 0 children

theorem outermostEach_sorted (start : Nat) : (children : List ParseTree) →
    ((outermostEach start children).map Prod.fst).Pairwise Earlier
  | [] => .nil
  | tree :: others => by
    rw [outermostEach, List.map_append, List.map_map]
    refine List.pairwise_append.mpr ⟨?_, outermostEach_sorted (start + 1) others, ?_⟩
    · have inside := outermost_sorted tree
      rw [List.pairwise_map] at inside ⊢
      exact inside.imp List.Lex.cons
    · intro first before second after
      obtain ⟨spot, _, rfl⟩ := List.mem_map.mp before
      obtain ⟨⟨way, found⟩, member, rfl⟩ := List.mem_map.mp after
      obtain ⟨index, rest, child, same, _⟩ :=
        (mem_outermostEach_iff way found (start + 1) others).mp member
      cases same
      exact .rel (by omega)

end

end Outermost

theorem message_problem (label : Label) :
    label.problem.message = "syntax error at line " ++ toString (label.row + 1) ++ ", column "
      ++ toString (label.column + 1)
      ++ if label.missing then ": missing " ++ label.kind else "" := by
  unfold Problem.message Label.problem
  by_cases missing : label.missing = true
  · simp only [if_pos missing]
  · simp only [if_neg missing]

/-- The search for problems reports the outermost ones, each of them once and in the order of the
text, by the lines and columns where they begin and by what is missing there; it reports none just
if the tree has no error. -/
theorem problems_outermost (tree : ParseTree) :
    (∃ spots : List (List Nat × ParseTree),
      tree.problems.map Problem.message = (spots.map fun spot => spot.2.label).map (fun label =>
        "syntax error at line " ++ toString (label.row + 1) ++ ", column "
          ++ toString (label.column + 1)
          ++ if label.missing then ": missing " ++ label.kind else "") ∧
      (spots.map Prod.fst).Pairwise Earlier ∧
      ∀ path node, (path, node) ∈ spots ↔ IsOutermost tree path node) ∧
    (tree.problems = [] ↔ tree.hasError = false) := by
  rw [problems_eq]
  constructor
  · refine ⟨outermost tree, ?_, outermost_sorted tree, ?_⟩
    · simp only [reports, List.map_map, Function.comp_def, message_problem]
    · intro path node
      exact mem_outermost_iff path node tree
  · exact reports_eq_nil_iff tree

end RailSpec.ParseTree
