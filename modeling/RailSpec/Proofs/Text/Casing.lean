import Mathlib.Data.List.Basic
import RailSpec.Text.Blank
import RailSpec.Text.Casing

/-!
Upper-casing. The upper-case form of a character is the character itself or stands in the tables, and
the forms in the tables are settled: each starts with a character that is its own upper-case form, and
there are neither blanks nor slashes nor underscores in it.
-/

namespace RailSpec.Text

namespace CaseRun

/-- The first and the last of the upper-case forms of a run. -/
def low (run : CaseRun) : Nat :=
  (run.first + run.shift).toNat

def high (run : CaseRun) : Nat :=
  (run.last + run.shift).toNat

/-- Whether the upper-case forms of a run lie outside a range. -/
def misses (run : CaseRun) (first last : Nat) : Bool :=
  Nat.blt run.high first || Nat.blt last run.low

/-- Whether no upper-case form of a run is a letter of another one: the two lie apart, or the letters
of the other are all even and the forms all odd, or the reverse. -/
def clears (run other : CaseRun) : Bool :=
  run.misses other.first other.last ||
    ((run.step == 2 || run.first == run.last) && other.step == 2 &&
      (run.low + other.first) % 2 == 1)

/-- What is known of each upper-case form of a run. -/
structure IsForm (run : CaseRun) (code : Nat) : Prop where
  least : run.low ≤ code
  most : code ≤ run.high
  parity : run.step = 2 ∨ run.first = run.last → code % 2 = run.low % 2

end CaseRun

section Tables

theorem caseRuns_characters : ∀ run ∈ caseRuns,
    0 < run.low ∧ (run.high < 0xD800 ∨ 0xDFFF < run.low ∧ run.high < 0x110000) := by
  decide +kernel

theorem caseRuns_solid : ∀ run ∈ caseRuns, run.misses 9 13 ∧ run.misses 28 32 ∧
    ∀ code ∈ '/'.toNat :: '_'.toNat :: wideBlanks, run.misses code code := by
  decide +kernel

theorem caseExpansions_solid : ∀ expansion ∈ caseExpansions, ∀ code ∈ expansion.2,
    isBlank (Char.ofNat code) = false ∧ Char.ofNat code ≠ '/' ∧ Char.ofNat code ≠ '_' := by
  decide +kernel

/-- No form in the runs has another upper-case form. -/
theorem caseRuns_settled : (caseRuns.all fun run => caseRuns.all run.clears &&
    caseExpansions.all fun expansion => run.misses expansion.1 expansion.1) = true := by
  decide +kernel

/-- Nor has the first character of a longer one. -/
theorem caseExpansions_settled : (caseExpansions.all fun expansion =>
    (expansion.2.map Char.ofNat).head?.any fun c => upper c == [c]) = true := by
  decide +kernel

end Tables

namespace CaseRun

variable {run : CaseRun} {code : Nat}

theorem IsForm.outside {first last : Nat} (form : run.IsForm code)
    (missed : run.misses first last = true) : ¬ (first ≤ code ∧ code ≤ last) := by
  have most := form.most
  have least := form.least
  simp only [misses, Bool.or_eq_true, Nat.blt_eq] at missed
  omega

theorem IsForm.ne {other : Nat} (form : run.IsForm code)
    (missed : run.misses other other = true) : code ≠ other := by
  have outside := form.outside missed
  omega

theorem isForm_of_contains {letter : Nat} (member : run ∈ caseRuns)
    (within : run.contains letter = true) : run.IsForm (letter + run.shift).toNat := by
  obtain ⟨positive, -⟩ := caseRuns_characters run member
  simp only [contains, Bool.and_eq_true, decide_eq_true_eq, beq_iff_eq] at within
  obtain ⟨⟨first, last⟩, stepped⟩ := within
  rw [low] at positive
  refine ⟨by rw [low]; omega, by rw [high]; omega, fun single => ?_⟩
  rw [low]
  rcases single with two | one
  · rw [two] at stepped
    omega
  · omega

theorem IsForm.toNat_ofNat (form : run.IsForm code) (member : run ∈ caseRuns) :
    (Char.ofNat code).toNat = code := by
  obtain ⟨-, character⟩ := caseRuns_characters run member
  have most := form.most
  have least := form.least
  have valid : code.isValidChar := by
    rw [Nat.isValidChar]
    omega
  rw [Char.ofNat, dif_pos valid]
  rfl

theorem IsForm.cleared {other : CaseRun} (form : run.IsForm code)
    (clear : run.clears other = true) : other.contains code = false := by
  simp only [clears, Bool.or_eq_true, Bool.and_eq_true, beq_iff_eq] at clear
  rw [contains, Bool.eq_false_iff]
  simp only [ne_eq, Bool.and_eq_true, decide_eq_true_eq, beq_iff_eq]
  rintro ⟨inside, stepped⟩
  rcases clear with missed | ⟨⟨single, two⟩, odd⟩
  · exact form.outside missed inside
  · have parity := form.parity single
    rw [two] at stepped
    omega

/-- No form in the runs is a blank, a slash or an underscore. -/
theorem IsForm.solid (form : run.IsForm code) (member : run ∈ caseRuns) :
    isBlank (Char.ofNat code) = false ∧ Char.ofNat code ≠ '/' ∧ Char.ofNat code ≠ '_' := by
  obtain ⟨controls, separators, others⟩ := caseRuns_solid run member
  have number := form.toNat_ofNat member
  have apart : ∀ other ∈ '/'.toNat :: '_'.toNat :: wideBlanks, code ≠ other :=
    fun other listed => form.ne (others other listed)
  have differs (c : Char) (listed : c.toNat ∈ '/'.toNat :: '_'.toNat :: wideBlanks) :
      Char.ofNat code ≠ c := by
    intro same
    rw [same] at number
    exact apart _ listed number.symm
  refine ⟨?_, differs '/' (by simp), differs '_' (by simp)⟩
  have narrow : wideBlanks.contains code = false := by
    rw [List.contains_eq_mem, decide_eq_false_iff_not]
    intro wide
    exact apart code (List.mem_cons_of_mem _ (List.mem_cons_of_mem _ wide)) rfl
  have noControl := form.outside controls
  have noSeparator := form.outside separators
  rw [isBlank, number, narrow]
  simp only [Bool.or_false, Bool.or_eq_false_iff, Bool.and_eq_false_iff, decide_eq_false_iff_not]
  omega

end CaseRun

/-- A character that is not in the tables is its own upper-case form. -/
theorem upper_eq_self {c : Char} (single : ∀ expansion ∈ caseExpansions, c.toNat ≠ expansion.1)
    (plain : ∀ run ∈ caseRuns, run.contains c.toNat = false) : upper c = [c] := by
  have noExpansion : caseExpansions.lookup c.toNat = none := by
    simpa [List.lookup_eq_none_iff] using single
  have noRun : caseRuns.find? (·.contains c.toNat) = none := by
    simpa [List.find?_eq_none] using plain
  rw [upper, noExpansion, noRun]

/-- The three ways to the upper-case form of a character. -/
theorem upper_cases (c : Char) :
    upper c = [c] ∨
      (∃ expansion ∈ caseExpansions, upper c = expansion.2.map Char.ofNat) ∨
      ∃ run ∈ caseRuns, ∃ code, run.IsForm code ∧ upper c = [Char.ofNat code] := by
  unfold upper
  split
  · rename_i codes found
    obtain ⟨front, behind, split, _⟩ := List.lookup_eq_some_iff.mp found
    exact .inr (.inl ⟨(c.toNat, codes), split ▸ List.mem_append_cons_self, rfl⟩)
  · split
    · rename_i run found
      have member := List.mem_of_find?_eq_some found
      have within := List.find?_some found
      exact .inr (.inr ⟨run, member, _, CaseRun.isForm_of_contains member within, rfl⟩)
    · exact .inl rfl

theorem upper_form {run : CaseRun} {code : Nat} (member : run ∈ caseRuns)
    (form : run.IsForm code) : upper (Char.ofNat code) = [Char.ofNat code] := by
  have settled := List.all_eq_true.mp caseRuns_settled run member
  simp only [Bool.and_eq_true, List.all_eq_true] at settled
  obtain ⟨clear, missed⟩ := settled
  apply upper_eq_self
  · intro expansion within
    rw [form.toNat_ofNat member]
    exact form.ne (missed expansion within)
  · intro other within
    rw [form.toNat_ofNat member]
    exact form.cleared (clear other within)

/-- An upper-case form is not empty, and starts with its own upper-case form. -/
theorem upper_settled (c : Char) : ∃ first rest, upper c = first :: rest ∧ upper first = [first] := by
  rcases upper_cases c with itself | ⟨expansion, member, form⟩ | ⟨run, member, code, within, form⟩
  · exact ⟨c, [], itself, itself⟩
  · have settled := List.all_eq_true.mp caseExpansions_settled expansion member
    rw [← form, Option.any_eq_true] at settled
    obtain ⟨first, opens, same⟩ := settled
    obtain ⟨rest, found⟩ := List.head?_eq_some_iff.mp opens
    exact ⟨first, rest, found, beq_iff_eq.mp same⟩
  · exact ⟨Char.ofNat code, [], form, upper_form member within⟩

/-- Upper-casing makes no blank, no slash and no underscore. -/
theorem mem_upper {c u : Char} (member : u ∈ upper c) :
    u = c ∨ isBlank u = false ∧ u ≠ '/' ∧ u ≠ '_' := by
  rcases upper_cases c with itself | ⟨expansion, listed, form⟩ | ⟨run, listed, code, within, form⟩
  · rw [itself, List.mem_singleton] at member
    exact .inl member
  · rw [form] at member
    obtain ⟨code, inside, rfl⟩ := List.mem_map.mp member
    exact .inr (caseExpansions_solid expansion listed code inside)
  · rw [form, List.mem_singleton] at member
    subst member
    exact .inr (within.solid listed)

end RailSpec.Text
