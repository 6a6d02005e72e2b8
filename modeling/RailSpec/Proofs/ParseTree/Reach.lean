import RailSpec.Proofs.ParseTree.Place

/-!
The walk through a parsed tree. It meets the root and every node that named nodes other than
comments lead to, each once, and no other.
-/

namespace RailSpec.ParseTree

open Node (Visit visits visitsBelow visitsHeld visitOf)

/-- A way from a node down to another, by the places of children, through named nodes other than
comments. -/
inductive Reaches : ParseTree → List Nat → ParseTree → Prop where
  | here (tree : ParseTree) : Reaches tree [] tree
  | child {tree child node : ParseTree} {index : Nat} {path : List Nat}
    (held : tree.children[index]? = some child) (named : child.label.named = true)
    (code : child.label.kind ≠ "comment") (rest : Reaches child path node) :
    Reaches tree (index :: path) node

/-- What the grammar guarantees: numbers, truth words and signs have no child in the field `value`,
and no comment stands in a field whose name is kept. -/
inductive Grammatical : ParseTree → Prop where
  | node {label : Label} {children : List ParseTree}
    (leaf : label.kind ∈ valueKinds → ∀ child ∈ children, child.label.field ≠ some "value")
    (comments : ∀ child ∈ children, child.label.kind = "comment" →
      ∀ name ∈ child.label.field, name ∉ fieldNames)
    (below : ∀ child ∈ children, Grammatical child) :
    Grammatical (.node label children)

/-- The fields that a node gives. -/
def nodeFields (located : Located) : ParseTree → Fields
  | .node label children => fieldsOf located label (toValues located children)

mutual

/-- The nodes that a tree reaches, with the ways to them. -/
def reached : ParseTree → List (List Nat × ParseTree)
  | .node label children => ([], .node label children) :: reachedEach 0 children

def reachedEach (index : Nat) : List ParseTree → List (List Nat × ParseTree)
  | [] => []
  | tree :: rest =>
    (if tree.label.isSyntax then (reached tree).map fun spot => (index :: spot.1, spot.2) else [])
      ++ reachedEach (index + 1) rest

end

section Reached

theorem isSyntax_iff (label : Label) :
    label.isSyntax = true ↔ label.named = true ∧ label.kind ≠ "comment" := by
  simp [Label.isSyntax]

mutual

theorem mem_reached_iff (path : List Nat) (node : ParseTree) : (tree : ParseTree) →
    ((path, node) ∈ reached tree ↔ Reaches tree path node)
  | .node label children => by
    rw [reached, List.mem_cons, mem_reachedEach_iff path node 0 children]
    constructor
    · rintro (same | ⟨index, rest, child, rfl, held, syntactic, further⟩)
      · cases same
        exact .here _
      · obtain ⟨named, code⟩ := (isSyntax_iff _).mp syntactic
        rw [Nat.zero_add]
        exact .child held named code further
    · intro reaches
      cases reaches with
      | here => exact .inl rfl
      | child held named code further =>
        exact .inr ⟨_, _, _, by rw [Nat.zero_add], held, (isSyntax_iff _).mpr ⟨named, code⟩, further⟩

theorem mem_reachedEach_iff (path : List Nat) (node : ParseTree) (start : Nat) :
    (children : List ParseTree) → ((path, node) ∈ reachedEach start children ↔
      ∃ index rest child, path = (start + index) :: rest ∧ children[index]? = some child ∧
        child.label.isSyntax = true ∧ Reaches child rest node)
  | [] => by simp [reachedEach]
  | tree :: others => by
    rw [reachedEach, List.mem_append, mem_reachedEach_iff path node (start + 1) others]
    constructor
    · rintro (first | ⟨index, rest, child, rfl, held, syntactic, further⟩)
      · by_cases syntactic : tree.label.isSyntax = true
        · rw [if_pos syntactic, List.mem_map] at first
          obtain ⟨⟨way, found⟩, member, same⟩ := first
          cases same
          exact ⟨0, way, tree, rfl, rfl, syntactic, (mem_reached_iff way found tree).mp member⟩
        · rw [if_neg syntactic] at first
          cases first
      · exact ⟨index + 1, rest, child, by rw [Nat.add_right_comm, Nat.add_assoc], held, syntactic, further⟩
    · rintro ⟨index, rest, child, rfl, held, syntactic, further⟩
      cases index with
      | zero =>
        cases held
        left
        rw [if_pos syntactic, List.mem_map]
        exact ⟨(rest, node), (mem_reached_iff rest node tree).mpr further, rfl⟩
      | succ index =>
        right
        exact ⟨index, rest, child, by rw [Nat.add_right_comm, Nat.add_assoc], held, syntactic, further⟩

end

mutual

theorem reached_nodup : (tree : ParseTree) → ((reached tree).map Prod.fst).Nodup
  | .node label children => by
    rw [reached, List.map_cons, List.nodup_cons]
    refine ⟨?_, reachedEach_nodup 0 children⟩
    intro member
    obtain ⟨⟨way, found⟩, present, same⟩ := List.mem_map.mp member
    obtain ⟨index, rest, child, further, _⟩ := (mem_reachedEach_iff way found 0 children).mp present
    cases same.symm.trans further

theorem reachedEach_nodup (start : Nat) : (children : List ParseTree) →
    ((reachedEach start children).map Prod.fst).Nodup
  | [] => List.nodup_nil
  | tree :: others => by
    rw [reachedEach, List.map_append]
    refine List.nodup_append.mpr ⟨?_, reachedEach_nodup (start + 1) others, ?_⟩
    · split
      · rw [List.map_map]
        have inside := reached_nodup tree
        have under := inside.map (fun _ _ same => (List.cons.inj same).2 :
          Function.Injective (List.cons start))
        rwa [List.map_map] at under
      · exact List.nodup_nil
    · intro first before second after same
      subst same
      obtain ⟨⟨way, found⟩, present, rfl⟩ := List.mem_map.mp after
      obtain ⟨index, rest, child, further, _⟩ :=
        (mem_reachedEach_iff way found (start + 1) others).mp present
      split at before
      · obtain ⟨held, inside, same⟩ := List.mem_map.mp before
        obtain ⟨spot, _, rfl⟩ := List.mem_map.mp inside
        have clash : start = start + 1 + index := (List.cons.inj (same.trans further)).1
        omega
      · cases before

end

end Reached

section Walk

variable (located : Located)

theorem toValues_eq (children : List ParseTree) :
    toValues located children = children.map fun child => (child.label, toValue located child) := by
  induction children with
  | nil => rw [toValues, List.map_nil]
  | cons child rest ih =>
    cases child with
    | node here below => rw [toValues, ih, List.map_cons, toValue, label]

theorem toValue_eq (tree : ParseTree) :
    toValue located tree = .deferred (.mapping (nodeFields located tree)) := by
  obtain ⟨label, children⟩ := tree
  rw [toValue, nodeFields]

theorem tagOf_nodeFields (tree : ParseTree) :
    Node.tagOf (nodeFields located tree) = some tree.label.kind := by
  obtain ⟨label, children⟩ := tree
  exact tagOf_fieldsOf located label _

theorem visits_toValue (parent : Option Fields) (tree : ParseTree) :
    visits parent (toValue located tree) =
      ⟨nodeFields located tree, parent⟩ ::
        visitsBelow (nodeFields located tree) (nodeFields located tree) := by
  rw [toValue_eq, visits, visitOf, tagOf_nodeFields]
  rfl

/-- Standing in a field by itself makes no difference to a node with a tag. -/
theorem visitsHeld_toValue (owner : Fields) (tree : ParseTree) :
    visitsHeld owner (toValue located tree) = visits (some owner) (toValue located tree) := by
  rw [visits_toValue, toValue_eq, visitsHeld, tagOf_nodeFields]
  rfl

theorem reachedEach_nodes (index : Nat) (children : List ParseTree) :
    (reachedEach index children).map (fun spot => nodeFields located spot.2) =
      (children.filter fun child => child.label.isSyntax).flatMap fun child =>
        (reached child).map fun spot => nodeFields located spot.2 := by
  induction children generalizing index with
  | nil => rfl
  | cons child rest ih =>
    rw [reachedEach, List.map_append, ih, List.filter_cons]
    split
    · rw [List.map_map, List.flatMap_cons]
      rfl
    · rfl

private theorem syntax_children (children : List ParseTree) :
    ((toValues located children).filter fun child => child.1.isSyntax).map Prod.snd =
      (children.filter fun child => child.label.isSyntax).map (toValue located) := by
  rw [toValues_eq, List.filter_map, List.map_map]
  rfl

/-- Below a node the walk meets its syntactic children with all below them, in some order. -/
theorem visitsBelow_perm {label : Label} {children : List ParseTree}
    (leaf : label.kind ∈ valueKinds → ∀ child ∈ children, child.label.field ≠ some "value")
    (comments : ∀ child ∈ children, child.label.kind = "comment" →
      ∀ name ∈ child.label.field, name ∉ fieldNames) (owner : Fields) :
    (visitsBelow owner (nodeFields located (.node label children))).Perm
      ((children.filter fun child => child.label.isSyntax).flatMap fun child =>
        visits (some owner) (toValue located child)) := by
  have each {holds : Label × Value → Prop}
      (all : ∀ child ∈ children, holds (child.label, toValue located child)) :
      ∀ child ∈ toValues located children, holds child := by
    rw [toValues_eq]
    exact List.forall_mem_map.mpr all
  have placed := fieldsOf_visits owner located (fun valued => each (leaf valued)) (each comments)
    (each fun child _ => visitsHeld_toValue located owner child)
  rwa [syntax_children, List.flatMap_map] at placed

/-- The walk through a parsed tree meets the nodes that it reaches, in some order. -/
theorem visits_perm {tree : ParseTree} (grammatical : Grammatical tree) (parent : Option Fields) :
    ((visits parent (toValue located tree)).map Visit.fields).Perm
      ((reached tree).map fun spot => nodeFields located spot.2) := by
  induction grammatical generalizing parent with
  | @node label children leaf comments below ih =>
    rw [visits_toValue, reached, List.map_cons, List.map_cons, reachedEach_nodes]
    apply List.Perm.cons
    have level := (visitsBelow_perm located leaf comments
      (nodeFields located (.node label children))).map Visit.fields
    rw [List.map_flatMap] at level
    apply level.trans
    apply List.Perm.flatMap_left
    intro child member
    exact ih child (List.mem_filter.mp member).1 _

private theorem exists_map_of_perm {α β : Type} {change : α → β} {images : List β} {items : List α}
    (same : images.Perm (items.map change)) :
    ∃ reordered : List α, images = reordered.map change ∧ reordered.Perm items := by
  have reorder := congrFun (congrFun (List.eq_map_comp_perm change) images) items
  exact (iff_of_eq reorder).mpr same

/-- The walk through a parsed tree visits the root and every node that is reached through named
nodes other than comments, each of them once, and nothing else. -/
theorem walk_reaches (located : Located) {tree : ParseTree} (grammatical : Grammatical tree) :
    ∃ met : List (List Nat × ParseTree),
      (Node.walk (toValue located tree)).map Visit.fields =
        met.map (fun spot => nodeFields located spot.2) ∧
      (met.map Prod.fst).Nodup ∧
      ∀ path node, (path, node) ∈ met ↔ Reaches tree path node := by
  have same := visits_perm located grammatical none
  obtain ⟨met, walked, order⟩ := exists_map_of_perm same
  refine ⟨met, walked, (order.map Prod.fst).nodup_iff.mpr (reached_nodup tree), ?_⟩
  intro path node
  rw [order.mem_iff]
  exact mem_reached_iff path node tree

/-- A block with a keyword, a comment, and a number under `body`. -/
def blockTree : ParseTree :=
  .node ⟨"do_block", 0, 9, none, true, false, 0, 0⟩ [
    .node ⟨"do", 0, 2, none, false, false, 0, 0⟩ [],
    .node ⟨"comment", 3, 5, none, true, false, 0, 3⟩ [],
    .node ⟨"body_statement", 6, 7, some "body", true, false, 0, 6⟩ [
      .node ⟨"integer", 6, 7, none, true, false, 0, 6⟩ []]]

private theorem blockTree_grammatical : Grammatical blockTree := by
  have bare (label : Label) : Grammatical (.node label []) :=
    .node (fun _ child member => by cases member) (fun child member => by cases member)
      fun child member => by cases member
  have body : Grammatical (.node ⟨"body_statement", 6, 7, some "body", true, false, 0, 6⟩ [
      .node ⟨"integer", 6, 7, none, true, false, 0, 6⟩ []]) := by
    refine .node (by decide) (by simp [label]) ?_
    intro child member
    rw [List.mem_singleton.mp member]
    exact bare _
  refine .node (by decide) (by simp [label]) ?_
  intro child member
  simp only [List.mem_cons, List.not_mem_nil, or_false] at member
  rcases member with rfl | rfl | rfl
  · exact bare _
  · exact bare _
  · exact body

theorem walk_reaches_block :
    ∃ met : List (List Nat × ParseTree),
      (Node.walk (toValue (Located.ofString "do # x 1") blockTree)).map Visit.fields =
        met.map (fun spot => nodeFields (Located.ofString "do # x 1") spot.2) ∧
      (met.map Prod.fst).Nodup ∧
      ∀ path node, (path, node) ∈ met ↔ Reaches blockTree path node :=
  walk_reaches _ blockTree_grammatical

end Walk

end RailSpec.ParseTree
