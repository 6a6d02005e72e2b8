import Mathlib
import RailSpec.Proofs.TypeSpec.Parts

/-!
Names of enum members. Trimming, squeezing and trimming again leave of a value just its runs of
letters and digits with single underscores between them, so a member name is known from these runs
and gives them back in upper case.
-/

namespace RailSpec.TypeSpec

/-- The characters of names: ASCII letters, digits and underscores. -/
def isNameCharacter (c : Char) : Bool :=
  c.isAlphanum || c = '_'

/-- Runs with an underscore between neighbours. -/
def linked (runs : List (List Char)) : List Char :=
  ['_'].intercalate runs

/-- The name that runs of letters and digits give: in upper case, with an underscore between
neighbours and one more in front of a digit. -/
def joinedName (runs : List (List Char)) : String :=
  let letters := linked (runs.map (·.map Char.toUpper))
  String.ofList (if letters.head?.any Char.isDigit then '_' :: letters else letters)

/-- Filled runs without special characters. -/
def ArePlain (runs : List (List Char)) : Prop :=
  ∀ run ∈ runs, run ≠ [] ∧ ∀ c ∈ run, isSpecial c = false

section Squeezing

variable {joins : Char → Bool} {run rest text : List Char} {runs : List (List Char)}

theorem squeezed_run (plain : ∀ c ∈ run, joins c = false) (rest : List Char) :
    squeezed joins (run ++ rest) = run ++ squeezed joins rest := by
  induction run with
  | nil => rfl
  | cons c run ih =>
    obtain ⟨inside, others⟩ := List.forall_mem_cons.mp plain
    rw [List.cons_append, squeezed.eq_def]
    simp [inside, ih others]

theorem squeezed_gap {gap : List Char} (filled : gap ≠ []) (joined : ∀ c ∈ gap, joins c = true)
    (ends : ∀ c, rest.head? = some c → joins c = false) :
    squeezed joins (gap ++ rest) = '_' :: squeezed joins rest := by
  induction gap with
  | nil => exact absurd rfl filled
  | cons c gap ih =>
    obtain ⟨here, others⟩ := List.forall_mem_cons.mp joined
    cases gap with
    | nil =>
      cases rest with
      | nil => simp [squeezed, here]
      | cons next rest => simp [squeezed, here, ends next rfl]
    | cons next gap =>
      have later : squeezed joins (next :: (gap ++ rest)) = '_' :: squeezed joins rest :=
        ih (List.cons_ne_nil next gap) others
      rw [List.cons_append, List.cons_append, squeezed.eq_def]
      simp [here, others next (List.mem_cons_self ..), later]

/-- The underscore for a gap at the front of a text. -/
def hem (joins : Char → Bool) (text : List Char) : List Char :=
  if text.head?.any joins then ['_'] else []

theorem eq_of_mem_hem {c : Char} (member : c ∈ hem joins text) : c = '_' := by
  rw [hem] at member
  split at member
  · exact List.mem_singleton.mp member
  · cases member

theorem squeezed_opening {gap : List Char} (apart : ∀ c ∈ gap, joins c = true) (filled : run ≠ [])
    (plain : ∀ c ∈ run, joins c = false) :
    squeezed joins (gap ++ (run ++ rest)) =
      hem joins (gap ++ (run ++ rest)) ++ (run ++ squeezed joins rest) := by
  obtain ⟨first, others, rfl⟩ := List.exists_cons_of_ne_nil filled
  have inside := plain first (List.mem_cons_self ..)
  cases gap with
  | nil =>
    rw [List.nil_append, squeezed_run plain]
    simp [hem, inside]
  | cons c gap =>
    rw [squeezed_gap (List.cons_ne_nil c gap) apart, squeezed_run plain]
    · simp [hem, apart c (List.mem_cons_self ..)]
    · rintro next ⟨⟩
      exact inside

/-- Squeezing leaves the runs of a text, linked, with underscores at the ends at most. -/
theorem Cut.squeezed_eq (cut : Cut joins text runs) :
    ∃ trail, (∀ c ∈ trail, c = '_') ∧
      squeezed joins text = hem joins text ++ (linked runs ++ trail) := by
  induction cut with
  | @gap gap apart =>
    refine ⟨[], List.forall_mem_nil _, ?_⟩
    cases gap with
    | nil => rfl
    | cons c gap =>
      have whole : squeezed joins (c :: gap ++ []) = '_' :: squeezed joins [] :=
        squeezed_gap (List.cons_ne_nil c gap) apart nofun
      rw [List.append_nil] at whole
      rw [whole, hem, List.head?_cons, Option.any_some, if_pos (apart c (List.mem_cons_self ..))]
      rfl
  | @run gap run rest runs apart filled together ends later ih =>
    obtain ⟨trail, underscores, behind⟩ := ih
    rw [squeezed_opening apart filled together, behind]
    cases runs with
    | nil =>
      refine ⟨hem joins rest ++ trail, ?_, by simp [linked]⟩
      intro c member
      rcases List.mem_append.mp member with hemmed | behind
      · exact eq_of_mem_hem hemmed
      · exact underscores c behind
    | cons next runs =>
      -- Another run follows, so a separator ends this one, and it is the one underscore between them.
      obtain ⟨nextFilled, -, within⟩ := later.of_mem next (List.mem_cons_self ..)
      have more : rest ≠ [] := by
        intro none
        rw [none] at within
        exact nextFilled (List.subset_nil.mp within)
      obtain ⟨c, others, opened⟩ := List.exists_cons_of_ne_nil more
      have hemmed : hem joins rest = ['_'] := by
        have separated := ends c (by rw [opened]; rfl)
        simp [hem, opened, separated]
      refine ⟨trail, underscores, ?_⟩
      rw [hemmed, linked, linked, List.intercalate_cons_cons]
      simp

end Squeezing

section Letters

variable {c : Char}

theorem isSpecial_eq_false_iff : isSpecial c = false ↔ c.isAlphanum = true := by
  rw [isSpecial, Bool.not_eq_false']

theorem ne_underscore (plain : isSpecial c = false) : decide (c = '_') = false := by
  apply decide_eq_false
  rintro rfl
  exact absurd plain (by decide)

theorem isSpecial_of_isBlank (blank : Text.isBlank c = true) : isSpecial c = true := by
  by_contra plain
  have alphanumeric := isSpecial_eq_false_iff.mp (Bool.eq_false_iff.mpr plain)
  simp only [Char.isAlphanum, Char.isAlpha, Char.isUpper, Char.isLower, Char.isDigit,
    Bool.or_eq_true, Bool.and_eq_true, decide_eq_true_eq, UInt32.le_iff_toNat_le] at alphanumeric
  have range : (65 ≤ c.toNat ∧ c.toNat ≤ 90 ∨ 97 ≤ c.toNat ∧ c.toNat ≤ 122) ∨
      48 ≤ c.toNat ∧ c.toNat ≤ 57 := alphanumeric
  have narrow : Text.wideBlanks.contains c.toNat = false := by
    simp [Text.wideBlanks]
    omega
  rw [Text.isBlank, narrow] at blank
  simp at blank
  omega

theorem isDigit_above (above : 57 < c.val.toNat) : c.isDigit = false := by
  simp only [Char.isDigit, UInt32.le_iff_toNat_le, Bool.and_eq_false_iff, decide_eq_false_iff_not]
  exact .inr (Nat.not_le.mpr above)

theorem isDigit_toUpper (c : Char) : c.toUpper.isDigit = c.isDigit := by
  by_cases small : c.isLower = true
  · have capital : c.toUpper.isUpper = true := by
      rw [Char.isUpper_toUpper_eq_isAlpha, Char.isAlpha, small, Bool.or_true]
    simp only [Char.isLower, Char.isUpper, Bool.and_eq_true, decide_eq_true_eq,
      UInt32.le_iff_toNat_le] at small capital
    rw [isDigit_above (Nat.lt_of_lt_of_le (by decide) small.1),
      isDigit_above (Nat.lt_of_lt_of_le (by decide) capital.1)]
  · rw [Char.toUpper_eq_of_not_isLower small]

theorem toUpper_plain (plain : isSpecial c = false) :
    c.toUpper.isUpper = true ∨ c.toUpper.isDigit = true := by
  have alphanumeric := isSpecial_eq_false_iff.mp plain
  rw [Char.isAlphanum, Bool.or_eq_true] at alphanumeric
  rw [Char.isUpper_toUpper_eq_isAlpha, isDigit_toUpper]
  exact alphanumeric

end Letters

section Linking

variable {runs : List (List Char)}

theorem ArePlain.tail {run : List Char} (plain : ArePlain (run :: runs)) : ArePlain runs :=
  fun other member => plain other (List.mem_cons_of_mem run member)

theorem arePlain_parts (text : List Char) : ArePlain (parts isSpecial text) := by
  intro run member
  obtain ⟨filled, together, -⟩ := of_mem_parts member
  exact ⟨filled, together⟩

theorem ArePlain.upper (plain : ArePlain runs) : ArePlain (runs.map (·.map Char.toUpper)) := by
  intro run member
  obtain ⟨source, listed, rfl⟩ := List.mem_map.mp member
  obtain ⟨filled, together⟩ := plain source listed
  refine ⟨by simpa using filled, ?_⟩
  intro c inside
  obtain ⟨letter, within, rfl⟩ := List.mem_map.mp inside
  rw [isSpecial_eq_false_iff, Char.isAlphanum, Bool.or_eq_true, Char.isAlpha, Bool.or_eq_true]
  exact (toUpper_plain (together letter within)).imp_left .inl

theorem linked_cons {run : List Char} (more : runs ≠ []) :
    linked (run :: runs) = run ++ ('_' :: linked runs) := by
  rw [linked, List.intercalate_cons_of_ne_nil more, List.append_assoc]
  rfl

theorem linked_single (run : List Char) : linked [run] = run := by
  simp [linked]

/-- Runs are linked one by one in front of others, so what holds of none and of one alone, and of one
more in front of others, holds of all. -/
@[elab_as_elim]
theorem byLinks {holds : List (List Char) → Prop} (none : holds []) (alone : ∀ run, holds [run])
    (more : ∀ run runs, runs ≠ [] → holds runs → holds (run :: runs)) (runs : List (List Char)) :
    holds runs := by
  induction runs with
  | nil => exact none
  | cons run runs ih =>
    cases runs with
    | nil => exact alone run
    | cons next runs => exact more run (next :: runs) (List.cons_ne_nil next runs) ih

theorem linked_opens (plain : ArePlain runs) :
    ∀ c, (linked runs).head? = some c → isSpecial c = false := by
  cases runs with
  | nil => nofun
  | cons run runs =>
    obtain ⟨filled, together⟩ := plain run (List.mem_cons_self ..)
    obtain ⟨first, others, rfl⟩ := List.exists_cons_of_ne_nil filled
    rw [linked, List.intercalate_cons_cons_left]
    rintro c ⟨⟩
    exact together first (List.mem_cons_self ..)

theorem linked_ne_nil (plain : ArePlain runs) (some : runs ≠ []) : linked runs ≠ [] := by
  obtain ⟨run, others, rfl⟩ := List.exists_cons_of_ne_nil some
  obtain ⟨filled, -⟩ := plain run (List.mem_cons_self ..)
  obtain ⟨first, behind, rfl⟩ := List.exists_cons_of_ne_nil filled
  rw [linked, List.intercalate_cons_cons_left]
  exact List.cons_ne_nil _ _

theorem linked_closes (plain : ArePlain runs) :
    ∀ c, (linked runs).getLast? = some c → isSpecial c = false := by
  induction runs using byLinks with
  | none => nofun
  | alone run =>
    intro c last
    rw [linked_single] at last
    obtain ⟨-, together⟩ := plain run (List.mem_cons_self ..)
    exact together c (List.mem_of_getLast? last)
  | more run runs filled ih =>
    intro c last
    have behind := linked_ne_nil plain.tail filled
    rw [linked_cons filled, List.getLast?_append_of_ne_nil _ (List.cons_ne_nil _ _),
      ← List.singleton_append, List.getLast?_append_of_ne_nil _ behind] at last
    exact ih plain.tail c last

theorem cut_linked (plain : ArePlain runs) : Cut isSpecial (linked runs) runs := by
  induction runs using byLinks with
  | none => exact .gap (List.forall_mem_nil _)
  | alone run =>
    obtain ⟨filled, together⟩ := plain run (List.mem_cons_self ..)
    have none : Cut isSpecial [] [] := .gap (List.forall_mem_nil _)
    have single : Cut isSpecial (run ++ []) [run] := none.single filled together nofun
    rw [linked_single]
    rwa [List.append_nil] at single
  | more run runs others ih =>
    obtain ⟨filled, together⟩ := plain run (List.mem_cons_self ..)
    rw [linked_cons others]
    apply ((ih plain.tail).cons (by decide)).single filled together
    rintro c ⟨⟩
    decide

theorem mem_linked {c : Char} (member : c ∈ linked runs) : c = '_' ∨ ∃ run ∈ runs, c ∈ run := by
  induction runs using byLinks with
  | none => cases member
  | alone run =>
    rw [linked_single] at member
    exact .inr ⟨run, List.mem_cons_self .., member⟩
  | more run runs others ih =>
    rw [linked_cons others, List.mem_append, List.mem_cons] at member
    rcases member with inside | underscore | behind
    · exact .inr ⟨run, List.mem_cons_self .., inside⟩
    · exact .inl underscore
    · apply (ih behind).imp_right
      rintro ⟨other, listed, within⟩
      exact ⟨other, List.mem_cons_of_mem run listed, within⟩

theorem map_linked (runs : List (List Char)) :
    (linked runs).map Char.toUpper = linked (runs.map (·.map Char.toUpper)) := by
  induction runs using byLinks with
  | none => rfl
  | alone run => rw [linked_single, List.map_singleton, linked_single]
  | more run runs others ih =>
    have upper : runs.map (·.map Char.toUpper) ≠ [] := by simpa using others
    rw [linked_cons others, List.map_cons, linked_cons upper, List.map_append, List.map_cons, ih]
    rfl

theorem squeezed_linked (plain : ArePlain runs) : squeezed (· = '_') (linked runs) = linked runs := by
  induction runs using byLinks with
  | none => rfl
  | alone run =>
    obtain ⟨-, together⟩ := plain run (List.mem_cons_self ..)
    have whole := squeezed_run (fun c inside => ne_underscore (together c inside)) []
    rw [List.append_nil] at whole
    rw [linked_single, whole]
    exact List.append_nil run
  | more run runs others ih =>
    obtain ⟨-, together⟩ := plain run (List.mem_cons_self ..)
    have between : squeezed (· = '_') ('_' :: linked runs) =
        '_' :: squeezed (· = '_') (linked runs) :=
      squeezed_gap (List.cons_ne_nil '_' []) (List.forall_mem_singleton.mpr (decide_eq_true rfl))
        fun c first => ne_underscore (linked_opens plain.tail c first)
    rw [linked_cons others, squeezed_run fun c inside => ne_underscore (together c inside), between,
      ih plain.tail]

end Linking

section JoinedName

variable {runs : List (List Char)}

/-- A name shows its runs in upper case. -/
theorem cut_joinedName (plain : ArePlain runs) :
    Cut isSpecial (joinedName runs).toList (runs.map (·.map Char.toUpper)) := by
  have cut := cut_linked plain.upper
  rw [joinedName, String.toList_ofList]
  split
  · exact cut.cons (by decide)
  · exact cut

theorem joinedName_upper (runs : List (List Char)) :
    joinedName (runs.map (·.map Char.toUpper)) = joinedName runs := by
  have again : (runs.map (·.map Char.toUpper)).map (·.map Char.toUpper) =
      runs.map (·.map Char.toUpper) := by
    simp [List.map_map, Function.comp_def]
  rw [joinedName, again, joinedName]

theorem joinedName_characters (plain : ArePlain runs) :
    ∀ c ∈ (joinedName runs).toList, c.isUpper = true ∨ c.isDigit = true ∨ c = '_' := by
  have letters : ∀ c ∈ linked (runs.map (·.map Char.toUpper)),
      c.isUpper = true ∨ c.isDigit = true ∨ c = '_' := by
    intro c member
    rcases mem_linked member with underscore | ⟨run, listed, within⟩
    · exact .inr (.inr underscore)
    · obtain ⟨source, among, rfl⟩ := List.mem_map.mp listed
      obtain ⟨letter, inside, rfl⟩ := List.mem_map.mp within
      have kinds := toUpper_plain ((plain source among).2 letter inside)
      exact kinds.imp_right .inl
  rw [joinedName, String.toList_ofList]
  intro c member
  split at member
  · rcases List.mem_cons.mp member with underscore | behind
    · exact .inr (.inr underscore)
    · exact letters c behind
  · exact letters c member

/-- An underscore stands in front of a digit. -/
theorem joinedName_opens (runs : List (List Char)) :
    ∀ c, (joinedName runs).toList.head? = some c → c.isDigit = false := by
  rw [joinedName, String.toList_ofList]
  intro c first
  split at first
  · cases first
    decide
  · rename_i other
    rw [first, Option.any_some] at other
    exact Bool.eq_false_iff.mpr other

end JoinedName

section MemberName

/-- Trimmed of its underscores, a squeezed text is its runs, linked. -/
theorem trimBy_squeezed (text : List Char) :
    Text.trimBy (· = '_') (squeezed isSpecial text) = linked (parts isSpecial text) := by
  have plain := arePlain_parts text
  obtain ⟨trail, underscores, squeezed⟩ := (cut_parts isSpecial text).squeezed_eq
  rw [squeezed]
  apply Text.trimBy_hemmed
  · exact fun c member => decide_eq_true (eq_of_mem_hem member)
  · exact fun c member => decide_eq_true (underscores c member)
  · exact fun c first => ne_underscore (linked_opens plain c first)
  · exact fun c last => ne_underscore (linked_closes plain c last)

theorem sanitized_eq (value : List Char) : sanitized value = linked (parts isSpecial value) := by
  have blankless : parts isSpecial (Text.trimBy Text.isBlank value) = parts isSpecial value :=
    parts_trimBy fun c blank => isSpecial_of_isBlank blank
  rw [sanitized, trimBy_squeezed, blankless]
  exact squeezed_linked (arePlain_parts value)

/-- A value without runs has no member name. -/
theorem memberName_unnamed {value : String} (unnamed : parts isSpecial value.toList = []) :
    memberName value = none := by
  rw [memberName, sanitized_eq, unnamed]
  rfl

/-- Any other value has the name that its runs give. -/
theorem memberName_named {value : String} (named : parts isSpecial value.toList ≠ []) :
    memberName value = some (joinedName (parts isSpecial value.toList)) := by
  have filled := linked_ne_nil (arePlain_parts value.toList) named
  obtain ⟨first, rest, opened⟩ := List.exists_cons_of_ne_nil filled
  rw [memberName, sanitized_eq, opened]
  dsimp only
  rw [joinedName, ← map_linked, opened]
  simp only [List.map_cons, List.head?_cons, Option.any_some, isDigit_toUpper]
  by_cases digit : first.isDigit = true
  · simp [digit]
  · simp [digit]

/-- Only a value without ASCII letters and digits has no member name. -/
theorem memberName_eq_none_iff {value : String} :
    memberName value = none ↔ ∀ c ∈ value.toList, c.isAlphanum = false := by
  have unnamed : memberName value = none ↔ parts isSpecial value.toList = [] := by
    constructor
    · intro none
      by_contra named
      rw [memberName_named named] at none
      cases none
    · exact memberName_unnamed
  rw [unnamed, parts_eq_nil_iff]
  simp [isSpecial]

theorem memberName_eq_some_iff {value name : String} :
    memberName value = some name ↔
      ∃ runs, Cut isSpecial value.toList runs ∧ runs ≠ [] ∧ name = joinedName runs := by
  constructor
  · intro some
    by_cases unnamed : parts isSpecial value.toList = []
    · rw [memberName_unnamed unnamed] at some
      cases some
    · rw [memberName_named unnamed] at some
      exact ⟨_, cut_parts isSpecial value.toList, unnamed, (Option.some.inj some).symm⟩
  · rintro ⟨runs, cut, named, rfl⟩
    obtain rfl := cut.eq_parts
    exact memberName_named named

/-- A member name is made of letters, digits and underscores. -/
theorem memberName_characters {value name : String} (named : memberName value = some name) :
    ∀ c ∈ name.toList, isNameCharacter c = true := by
  obtain ⟨runs, cut, -, rfl⟩ := memberName_eq_some_iff.mp named
  obtain rfl := cut.eq_parts
  intro c member
  rw [isNameCharacter, Char.isAlphanum, Char.isAlpha]
  rcases joinedName_characters (arePlain_parts value.toList) c member with upper | digit | underscore
  · simp [upper]
  · simp [digit]
  · simp [underscore]

theorem memberName_joinedName {runs : List (List Char)} (plain : ArePlain runs)
    (named : runs ≠ []) : memberName (joinedName runs) = some (joinedName runs) := by
  apply memberName_eq_some_iff.mpr
  exact ⟨_, cut_joinedName plain, by simpa using named, (joinedName_upper runs).symm⟩

/-- The runs of a value, without regard to case. -/
def foldedRuns (value : String) : List (List Char) :=
  (parts isSpecial value.toList).map (·.map Char.toUpper)

/-- The runs of a member name are those of its value, in upper case. -/
theorem parts_memberName {value name : String} (named : memberName value = some name) :
    parts isSpecial name.toList = foldedRuns value := by
  obtain ⟨runs, cut, -, rfl⟩ := memberName_eq_some_iff.mp named
  obtain rfl := cut.eq_parts
  exact (cut_joinedName (arePlain_parts value.toList)).eq_parts.symm

/-- Two values have one member name just if they have the same runs but for case. -/
theorem memberName_eq_iff {value other : String} :
    memberName value = memberName other ↔ foldedRuns value = foldedRuns other := by
  constructor
  · intro same
    cases named : memberName value with
    | some name =>
      rw [← parts_memberName named, ← parts_memberName (same.symm.trans named)]
    | none =>
      have unnamed {text : String} (nameless : memberName text = none) : foldedRuns text = [] := by
        by_contra filled
        rw [memberName_named (by simpa [foldedRuns] using filled)] at nameless
        cases nameless
      rw [unnamed named, unnamed (same.symm.trans named)]
  · intro same
    by_cases unnamed : parts isSpecial value.toList = []
    · have alsoUnnamed : parts isSpecial other.toList = [] := by
        simpa [foldedRuns, unnamed] using same.symm
      rw [memberName_unnamed unnamed, memberName_unnamed alsoUnnamed]
    · have named : parts isSpecial other.toList ≠ [] := by
        intro none
        exact unnamed (by simpa [foldedRuns, none] using same)
      rw [memberName_named unnamed, memberName_named named,
        ← joinedName_upper (parts isSpecial value.toList),
        ← joinedName_upper (parts isSpecial other.toList)]
      exact congrArg (fun runs => some (joinedName runs)) same

/-- A value has a member name just if it has an ASCII letter or digit in it. The name is its longest
runs of these in upper case, with an underscore between neighbours and one more in front of a digit.
It is made of capitals, digits and underscores, does not start with a digit, and is its own name. -/
theorem memberName_normalized (value : String) :
    (memberName value = none ↔ ∀ c ∈ value.toList, c.isAlphanum = false) ∧
      ∀ name, (memberName value = some name ↔
          ∃ runs, Cut isSpecial value.toList runs ∧ runs ≠ [] ∧ name = joinedName runs) ∧
        (memberName value = some name →
          (∀ c ∈ name.toList, c.isUpper = true ∨ c.isDigit = true ∨ c = '_') ∧
            (∀ c, name.toList.head? = some c → c.isDigit = false) ∧
            memberName name = some name) := by
  refine ⟨memberName_eq_none_iff, fun name => ⟨memberName_eq_some_iff, ?_⟩⟩
  intro some
  obtain ⟨runs, cut, named, rfl⟩ := memberName_eq_some_iff.mp some
  obtain rfl := cut.eq_parts
  have plain := arePlain_parts value.toList
  exact ⟨joinedName_characters plain, joinedName_opens _, memberName_joinedName plain named⟩

/-- A value with blanks around it, a digit first, marks in a row, and a letter that is not ASCII. -/
theorem memberName_normalized_factor :
    memberName " 2fa--enabled_é\n" = some "_2FA_ENABLED" ∧
      Cut isSpecial " 2fa--enabled_é\n".toList ["2fa".toList, "enabled".toList] ∧
      memberName "_2FA_ENABLED" = some "_2FA_ENABLED" := by
  have named : memberName " 2fa--enabled_é\n" = some "_2FA_ENABLED" := by decide +kernel
  have runs : parts isSpecial " 2fa--enabled_é\n".toList = ["2fa".toList, "enabled".toList] := by
    decide +kernel
  obtain ⟨-, -, settled⟩ := ((memberName_normalized _).2 _).2 named
  exact ⟨named, runs ▸ cut_parts _ _, settled⟩

end MemberName

end RailSpec.TypeSpec
