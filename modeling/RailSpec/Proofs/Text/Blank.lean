import Mathlib.Data.List.DropRight
import RailSpec.Text.Blank

/-! Trimming at both ends. A text that is trimmed has nothing more to trim. -/

namespace RailSpec.Text

variable {drops : Char → Bool} {text : List Char}

theorem trimBy_eq (drops : Char → Bool) (text : List Char) :
    trimBy drops text = (text.dropWhile drops).rdropWhile drops :=
  rfl

/-- Nothing is left just of a text in which everything may be dropped. -/
theorem trimBy_eq_nil_iff : trimBy drops text = [] ↔ ∀ c ∈ text, drops c = true := by
  rw [trimBy_eq, List.rdropWhile_eq_nil_iff]
  constructor
  · intro dropped
    by_contra kept
    have front : text.dropWhile drops ≠ [] := mt List.dropWhile_eq_nil_iff.mp kept
    have first := List.head_dropWhile_not drops front
    rw [dropped _ (List.head_mem front)] at first
    cases first
  · intro all c member
    exact all c ((List.dropWhile_sublist drops).subset member)

theorem mem_of_mem_trimBy {c : Char} (member : c ∈ trimBy drops text) : c ∈ text :=
  (List.dropWhile_sublist drops).subset ((List.rdropWhile_prefix drops _).subset member)

/-- All that is trimmed stands at the ends. -/
theorem trimBy_hems (drops : Char → Bool) (text : List Char) :
    ∃ front back, (∀ c ∈ front, drops c = true) ∧ (∀ c ∈ back, drops c = true) ∧
      text = front ++ (trimBy drops text ++ back) := by
  refine ⟨text.takeWhile drops, (text.dropWhile drops).rtakeWhile drops, ?_, ?_, ?_⟩
  · exact fun c member => List.mem_takeWhile_imp member
  · exact fun c member => List.mem_rtakeWhile_imp member
  · rw [trimBy_eq, List.rdropWhile_append_rtakeWhile, List.takeWhile_append_dropWhile]

/-- Whatever may be dropped around a text is trimmed if the text neither starts nor ends with such a
character. -/
theorem trimBy_hemmed {front back : List Char} (before : ∀ c ∈ front, drops c = true)
    (behind : ∀ c ∈ back, drops c = true)
    (opens : ∀ c, text.head? = some c → drops c = false)
    (closes : ∀ c, text.getLast? = some c → drops c = false) :
    trimBy drops (front ++ (text ++ back)) = text := by
  rw [trimBy_eq, List.dropWhile_append_of_pos before]
  cases text with
  | nil =>
    rw [List.nil_append, List.dropWhile_eq_nil_iff.mpr behind]
    rfl
  | cons first rest =>
    have kept : ¬ drops first = true := by simp [opens first rfl]
    have after : ∀ c ∈ back.reverse, drops c = true := fun c member =>
      behind c (List.mem_reverse.mp member)
    have last : (first :: rest).rdropWhile drops = first :: rest := by
      rw [List.rdropWhile_eq_self_iff]
      intro filled
      simp [closes _ (List.getLast?_eq_some_getLast filled)]
    rw [List.cons_append, List.dropWhile_cons_of_neg kept, List.rdropWhile, ← List.cons_append,
      List.reverse_append, List.dropWhile_append_of_pos after]
    exact last

theorem trimBy_trimBy (drops : Char → Bool) (text : List Char) :
    trimBy drops (trimBy drops text) = trimBy drops text := by
  have front : (trimBy drops text).dropWhile drops = trimBy drops text := by
    rw [List.dropWhile_eq_self_iff]
    intro filled
    have kept : trimBy drops text <+: text.dropWhile drops := List.rdropWhile_prefix drops _
    rw [kept.getElem filled]
    exact List.dropWhile_get_zero_not drops text _
  rw [trimBy_eq drops (trimBy drops text), front]
  exact List.rdropWhile_idempotent drops (text.dropWhile drops)

theorem strip_strip (text : String) : strip (strip text) = strip text := by
  rw [strip, strip, String.toList_ofList, trimBy_trimBy]

theorem strip_eq_empty_iff {text : String} : strip text = "" ↔ isBlankText text = true := by
  rw [strip, String.ofList_eq_empty_iff, trimBy_eq_nil_iff, isBlankText, List.all_eq_true]

theorem isBlankText_of_solid {line : String} {c : Char} (member : c ∈ line.toList)
    (solid : isBlank c = false) : isBlankText line = false := by
  refine List.all_eq_false.mpr ⟨c, member, ?_⟩
  rw [solid]
  exact Bool.false_ne_true

end RailSpec.Text
