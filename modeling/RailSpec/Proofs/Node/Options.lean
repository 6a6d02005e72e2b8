import RailSpec.Proofs.Fields.Latest
import RailSpec.Proofs.Node.Writable

/-!
Options of trailing arguments. However their pairs are grouped, as nodes on their own or in lists of
hashes, the options are the last values of the names that the pairs have.
-/

namespace RailSpec.Options

open Number (DigitFault)

variable (source : Source)

/-- What pairs say, one after the other: the names and values of those that have a name. -/
def readings : List Value → Except DigitFault Fields
  | [] => .ok []
  | pair :: rest => do
    let reading ← Literal.resolvePair source pair
    let others ← readings rest
    return reading.toList ++ others

theorem readings_append (first second : List Value) :
    readings source (first ++ second) = do
      let before ← readings source first
      let after ← readings source second
      return before ++ after := by
  induction first with
  | nil =>
    rw [List.nil_append]
    cases readings source second <;> rfl
  | cons pair rest ih =>
    rw [List.cons_append, readings, readings, ih]
    cases Literal.resolvePair source pair with
    | error fault => rfl
    | ok reading =>
      cases readings source rest with
      | error fault => rfl
      | ok before =>
        cases readings source second with
        | error fault => rfl
        | ok after => exact congrArg Except.ok (List.append_assoc ..).symm

/-- Reading pairs into options merges what they say. -/
theorem resolveOptions_eq (options : Fields) (pairs : List Value) :
    Literal.resolveOptions source options pairs =
      (readings source pairs).map (Fields.merge options) := by
  induction pairs generalizing options with
  | nil => rfl
  | cons pair rest ih =>
    rw [Literal.resolveOptions, readings]
    cases Literal.resolvePair source pair with
    | error fault => rfl
    | ok reading =>
      cases reading with
      | none =>
        have here := ih options
        cases others : readings source rest <;> rw [others] at here <;> exact here
      | some field =>
        obtain ⟨name, value⟩ := field
        have here := ih (Fields.put options name value)
        cases others : readings source rest <;> rw [others] at here <;> exact here

/-- The fields of a node in which pairs are looked for. -/
def pairFields : List String :=
  ["elements", "assocs", "arguments", "pairs"]

/-- A list of pairs in just one of the fields for them. -/
structure HoldsPairs (fields : Fields) (name : String) (pairs : List Value) : Prop where
  known : name ∈ pairFields
  held : fields.items? name = some pairs
  only : ∀ other ∈ pairFields, other ≠ name → fields.items? other = none

theorem firstList?_only {fields : Fields} {names : List String} {name : String}
    {pairs : List Value} (known : name ∈ names) (held : fields.items? name = some pairs)
    (only : ∀ other ∈ names, other ≠ name → fields.items? other = none) :
    firstList? fields names = some pairs := by
  induction names with
  | nil => cases known
  | cons first rest ih =>
    obtain ⟨here, later⟩ := List.forall_mem_cons.mp only
    by_cases same : first = name
    · subst same
      rw [firstList?]
      change (fields.items? first).or _ = _
      rw [held]
      rfl
    · have inside := (List.mem_cons.mp known).resolve_left (Ne.symm same)
      rw [firstList?, ih inside later]
      change (fields.items? first).or _ = _
      rw [here same]
      rfl

variable {node : Value} {fields : Fields} {name : String} {pairs : List Value}

theorem ofNode_pair (pair : isPair node = true) :
    ofNode source node = (readings source [node]).map (Fields.merge []) := by
  rw [ofNode, if_pos pair, readings, readings]
  cases Literal.resolvePair source node with
  | error fault => rfl
  | ok reading => cases reading <;> rfl

theorem ofNode_hash (given : Node.fields? node = some fields) (noPair : isPair node = false)
    (holds : HoldsPairs fields name pairs) :
    ofNode source node = (readings source pairs).map (Fields.merge []) := by
  have found := firstList?_only holds.known holds.held holds.only
  rw [pairFields] at found
  rw [ofNode, noPair, given]
  simp only [Bool.false_eq_true, if_false, Option.bind_some, found]
  exact resolveOptions_eq source [] pairs

/-- Arguments into which a sequence of pairs is cut: each is a pair by itself, or a node that is no
pair and holds a run of them. -/
inductive Grouped : List Value → List Value → Prop where
  | nil : Grouped [] []
  | pair {pair : Value} {pairs arguments : List Value} (tagged : isPair pair = true)
    (rest : Grouped pairs arguments) : Grouped (pair :: pairs) (pair :: arguments)
  | hash {hash : Value} {fields : Fields} {name : String} {run pairs arguments : List Value}
    (given : Node.fields? hash = some fields) (noPair : isPair hash = false)
    (holds : HoldsPairs fields name run) (rest : Grouped pairs arguments) :
    Grouped (run ++ pairs) (hash :: arguments)

/-- One argument more: what its pairs say comes before what the others say. -/
theorem mergedInto_cons {argument : Value} {run pairs arguments : List Value}
    (here : ofNode source argument = (readings source run).map (Fields.merge []))
    (rest : ∀ options, mergedInto source options arguments =
      (readings source pairs).map (Fields.merge options)) (options : Fields) :
    mergedInto source options (argument :: arguments) =
      (readings source (run ++ pairs)).map (Fields.merge options) := by
  rw [mergedInto, here, readings_append]
  cases readings source run with
  | error fault => rfl
  | ok before =>
    change mergedInto source (Fields.merge options (Fields.merge [] before)) arguments = _
    rw [Fields.merge_merge, rest]
    cases readings source pairs with
    | error fault => rfl
    | ok others => exact congrArg Except.ok (Fields.merge_append ..).symm

theorem mergedInto_grouped {arguments : List Value} (grouped : Grouped pairs arguments)
    (options : Fields) : mergedInto source options arguments =
      (readings source pairs).map (Fields.merge options) := by
  induction grouped generalizing options with
  | nil => rfl
  | pair tagged _ ih => exact mergedInto_cons source (ofNode_pair source tagged) ih options
  | hash given noPair holds _ ih =>
    exact mergedInto_cons source (ofNode_hash source given noPair holds) ih options

theorem readings_returns_iff : (∃ entries, readings source pairs = .ok entries) ↔
    ∀ pair ∈ pairs, ∃ reading, Literal.resolvePair source pair = .ok reading := by
  induction pairs with
  | nil => simp [readings]
  | cons pair rest ih => rw [readings, both_ok_iff, ih, List.forall_mem_cons]

/-- However a sequence of pairs is cut into arguments, the options are the last values of the names
that the pairs have, in the order in which these first come up. There are options just if every pair
is read, as it is if all integers in it can be written. -/
theorem merged_grouped {arguments : List Value} (grouped : Grouped pairs arguments) :
    merged source arguments = (readings source pairs).map Fields.latest ∧
      ((∃ options, merged source arguments = .ok options) ↔
        ∀ pair ∈ pairs, ∃ reading, Literal.resolvePair source pair = .ok reading) ∧
      ((∀ pair ∈ pairs, pair.IsWritable) → ∃ options, merged source arguments = .ok options) := by
  have same : merged source arguments = (readings source pairs).map Fields.latest := by
    rw [merged, mergedInto_grouped source grouped, funext Fields.merge_nil_eq_latest]
  have returns : (∃ options, merged source arguments = .ok options) ↔
      ∀ pair ∈ pairs, ∃ reading, Literal.resolvePair source pair = .ok reading := by
    rw [← readings_returns_iff, same]
    constructor
    · rintro ⟨options, done⟩
      obtain ⟨entries, read, _⟩ := map_ok done
      exact ⟨entries, read⟩
    · rintro ⟨entries, read⟩
      exact ⟨Fields.latest entries, by rw [read]; rfl⟩
  refine ⟨same, returns, ?_⟩
  intro writable
  apply returns.mpr
  intro pair member
  obtain ⟨reading, read, _⟩ := (Literal.resolvesWritable source (writable pair member)).pair
  exact ⟨reading, read⟩

/-- The pair `name => value`, both of them nodes. -/
def pairNode (name value : Value) : Value :=
  .mapping [("type", .text "AssocNode"), ("key", .mapping [("value", name)]),
    ("value", .mapping [("value", value)])]

/-- Options with a name set twice and a key that is no name. -/
def columnPairs : List Value := [
  pairNode (.text "null") (.bool true),
  pairNode (.text "limit") (.int 10),
  pairNode (.int 5) (.bool true),
  pairNode (.text "null") (.bool false)]

/-- The same pairs in two hashes of different kinds, with one pair by itself between them. -/
def columnArguments : List Value := [
  .mapping [("type", .text "KeywordHashNode"), ("elements", .list (columnPairs.take 2))],
  pairNode (.int 5) (.bool true),
  .mapping [("type", .text "hash"), ("pairs", .list (columnPairs.drop 3))]]

theorem columnArguments_grouped : Grouped columnPairs columnArguments := by
  have first : HoldsPairs [("type", .text "KeywordHashNode"),
      ("elements", .list (columnPairs.take 2))] "elements" (columnPairs.take 2) :=
    ⟨by decide, rfl, by simp [pairFields, Fields.items?_cons]⟩
  have last : HoldsPairs [("type", .text "hash"),
      ("pairs", .list (columnPairs.drop 3))] "pairs" (columnPairs.drop 3) :=
    ⟨by decide, rfl, by simp [pairFields, Fields.items?_cons]⟩
  exact .hash rfl rfl first (.pair rfl (.hash rfl rfl last .nil))

theorem columnPairs_writable : ∀ pair ∈ columnPairs, pair.IsWritable := by
  have written {name value : Value} (first : name.IsWritable) (second : value.IsWritable) :
      (pairNode name value).IsWritable :=
    Value.isWritable_mapping (by
      simp [Value.isWritable_text, Value.isWritable_mapping, first, second])
  have five : (Value.int 5).IsWritable := Value.isWritable_int (by decide +kernel)
  have ten : (Value.int 10).IsWritable := Value.isWritable_int (by decide +kernel)
  simp [columnPairs, written, Value.isWritable_text, Value.isWritable_bool, five, ten]

theorem merged_grouped_columnPairs :
    Grouped columnPairs columnArguments ∧ (∀ pair ∈ columnPairs, pair.IsWritable) ∧
      merged (Source.ofString "") columnArguments =
        .ok [("null", .bool false), ("limit", .int 10)] ∧
      ∃ options, merged (Source.ofString "") columnArguments = .ok options := by
  obtain ⟨same, _, returns⟩ := merged_grouped (Source.ofString "") columnArguments_grouped
  exact ⟨columnArguments_grouped, columnPairs_writable, same.trans rfl,
    returns columnPairs_writable⟩

end RailSpec.Options
