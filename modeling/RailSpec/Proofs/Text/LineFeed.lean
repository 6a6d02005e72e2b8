import Mathlib.Algebra.GroupWithZero.Nat
import Mathlib.Data.List.Basic
import RailSpec.Text.Lines
import RailSpec.Text.Quoted

/-!
Line feeds of a text, which tell how many lines it has. Quoting, joining and indenting add none; texts
that a message shows and written numbers have none.
-/

namespace RailSpec.Text

def lineFeeds (text : String) : Nat :=
  text.toList.count '\n'

/-- A text cut at its line feeds. -/
def lines (text : String) : List (List Char) :=
  text.toList.splitOn '\n'

theorem length_lines (text : String) : (lines text).length = lineFeeds text + 1 := by
  rw [lines, lineFeeds]
  induction text.toList with
  | nil => rfl
  | cons c rest ih =>
    rw [List.splitOn_eq_splitOnP, List.splitOnP_cons_eq_if_modifyHead, ← List.splitOn_eq_splitOnP]
    by_cases feed : c = '\n'
    · simp [feed, ih]
    · simp [feed, ih]

@[simp] theorem lineFeeds_append (text other : String) :
    lineFeeds (text ++ other) = lineFeeds text + lineFeeds other := by
  simp [lineFeeds]

theorem lineFeeds_eq_zero_iff {text : String} : lineFeeds text = 0 ↔ '\n' ∉ text.toList :=
  List.count_eq_zero

theorem lineFeeds_joined {separator : String} (plain : lineFeeds separator = 0)
    (texts : List String) : lineFeeds (joined separator texts) = (texts.map lineFeeds).sum := by
  induction texts with
  | nil => rfl
  | cons text rest ih =>
    cases rest with
    | nil => simp [joined]
    | cons next rest => simp [joined, plain, ih]

/-- Lines joined to a text have one line feed fewer than they are, besides their own. -/
theorem lineFeeds_unlines {lines : List String} (some : lines ≠ []) :
    lineFeeds (unlines lines) + 1 = lines.length + (lines.map lineFeeds).sum := by
  induction lines with
  | nil => exact absurd rfl some
  | cons line rest ih =>
    cases rest with
    | nil => simp [unlines, joined, Nat.add_comm]
    | cons next rest =>
      have later := ih (List.cons_ne_nil next rest)
      have feed : lineFeeds "\n" = 1 := rfl
      simp only [unlines, joined, lineFeeds_append, List.length_cons, List.map_cons, List.sum_cons]
        at later ⊢
      omega

theorem lineFeeds_indentLine (width : Nat) (line : String) :
    lineFeeds (indentLine width line) = lineFeeds line := by
  rw [indentLine]
  split
  · rfl
  · simp [lineFeeds, List.count_replicate]

theorem count_escaped (text : List Char) : (escaped text).count '\n' = text.count '\n' := by
  induction text with
  | nil => rfl
  | cons c rest ih =>
    rw [escaped]
    split
    · simp [List.count_cons, ih]
    · simp [List.count_cons, ih]

theorem lineFeeds_doubleQuoted (text : String) : lineFeeds (doubleQuoted text) = lineFeeds text := by
  simp [lineFeeds, doubleQuoted, count_escaped]

section Shown

theorem toDigits_single (base value : Nat) (some : 1 < base) (small : base ≤ 16) :
    '\n' ∉ Nat.toDigits base value := by
  have digit : ∀ number < 16, Nat.digitChar number ≠ '\n' := by decide
  induction value using Nat.strongRecOn with
  | ind value ih =>
    by_cases short : value < base
    · rw [Nat.toDigits_of_lt_base short, List.mem_singleton]
      exact (digit value (by omega)).symm
    · have more : base ≤ value := by omega
      have rest : value % base < base := Nat.mod_lt value (by omega)
      have last := digit (value % base) (Nat.lt_of_lt_of_le rest small)
      rw [Nat.toDigits_of_base_le some more, List.mem_append, List.mem_singleton]
      rintro (front | same)
      · exact ih (value / base) (Nat.div_lt_self (by omega) some) front
      · exact last same.symm

theorem hexDigits_single (width value : Nat) : '\n' ∉ hexDigits width value := by
  have digits := toDigits_single 16 value (by decide) (by decide)
  simp [hexDigits, digits]

theorem shownChar_single {quote : Char} (mark : quote ≠ '\n') (c : Char) :
    '\n' ∉ shownChar quote c := by
  unfold shownChar
  split
  · rename_i special
    have other : '\n' ≠ c := by
      rintro rfl
      simp [Ne.symm mark] at special
    simp [other]
  · split
    · simp
    · rename_i noFeed
      split_ifs <;> simp [hexDigits_single, Ne.symm noFeed]

theorem lineFeeds_shown (text : String) : lineFeeds (shown text) = 0 := by
  have mark : shownQuote text.toList ≠ '\n' := by
    unfold shownQuote
    split <;> decide
  have each : ∀ c ∈ text.toList, '\n' ∉ shownChar (shownQuote text.toList) c :=
    fun c _ => shownChar_single mark c
  rw [lineFeeds_eq_zero_iff, shown, String.toList_ofList]
  simp only [List.mem_append, List.mem_cons, List.mem_flatMap, List.not_mem_nil, or_false, not_or,
    not_exists, not_and]
  exact ⟨⟨Ne.symm mark, each⟩, Ne.symm mark⟩

end Shown

end RailSpec.Text
