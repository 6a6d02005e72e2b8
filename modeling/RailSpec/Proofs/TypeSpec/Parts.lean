import Mathlib.Data.List.Basic
import RailSpec.Proofs.Text.Blank
import RailSpec.TypeSpec.Name

/-!
A text cut at its separators. The parts of a text are its longest runs of other characters, in their
order, so separators may come, go or change wherever they stand without joining two runs.
-/

namespace RailSpec.TypeSpec

/-- A text as runs of characters with gaps of separators around them. A run goes on up to a separator
or to the end of the text, and a gap before it may be empty only where no other run ends. -/
inductive Cut (separates : Char → Bool) : List Char → List (List Char) → Prop where
  | gap {gap : List Char} (apart : ∀ c ∈ gap, separates c = true) : Cut separates gap []
  | run {gap run rest : List Char} {runs : List (List Char)}
      (apart : ∀ c ∈ gap, separates c = true) (filled : run ≠ [])
      (together : ∀ c ∈ run, separates c = false)
      (ends : ∀ c, rest.head? = some c → separates c = true) (later : Cut separates rest runs) :
      Cut separates (gap ++ (run ++ rest)) (run :: runs)

variable {separates : Char → Bool} {text first second : List Char} {runs : List (List Char)}

section Parts

theorem parts_cons {c : Char} (separated : separates c = true) (rest : List Char) :
    parts separates (c :: rest) = parts separates rest := by
  rw [parts.eq_def]
  exact if_pos separated

theorem parts_gap {gap : List Char} (apart : ∀ c ∈ gap, separates c = true) (rest : List Char) :
    parts separates (gap ++ rest) = parts separates rest := by
  induction gap with
  | nil => rfl
  | cons c gap ih =>
    obtain ⟨separated, others⟩ := List.forall_mem_cons.mp apart
    rw [List.cons_append, parts_cons separated, ih others]

theorem parts_run {run rest : List Char} (filled : run ≠ [])
    (together : ∀ c ∈ run, separates c = false)
    (ends : ∀ c, rest.head? = some c → separates c = true) :
    parts separates (run ++ rest) = run :: parts separates rest := by
  induction run with
  | nil => exact absurd rfl filled
  | cons c run ih =>
    obtain ⟨inside, others⟩ := List.forall_mem_cons.mp together
    cases run with
    | nil =>
      cases rest with
      | nil => simp [parts, inside]
      | cons next rest => simp [parts, inside, ends next rfl]
    | cons next run =>
      have nextInside := others next (List.mem_cons_self ..)
      have later : parts separates (next :: (run ++ rest)) = (next :: run) :: parts separates rest :=
        ih (List.cons_ne_nil next run) others
      rw [List.cons_append, List.cons_append, parts.eq_def]
      simp [inside, nextInside, later]

end Parts

namespace Cut

theorem eq_parts (cut : Cut separates text runs) : runs = parts separates text := by
  induction cut with
  | gap apart =>
    have none := parts_gap apart []
    rw [List.append_nil] at none
    exact none.symm
  | run apart filled together ends later ih =>
    rw [parts_gap apart, parts_run filled together ends, ← ih]

theorem cons {c : Char} (separated : separates c = true) (cut : Cut separates text runs) :
    Cut separates (c :: text) runs := by
  cases cut with
  | gap apart => exact .gap (List.forall_mem_cons.mpr ⟨separated, apart⟩)
  | run apart filled together ends later =>
    exact .run (List.forall_mem_cons.mpr ⟨separated, apart⟩) filled together ends later

/-- A character in front of a run belongs to it. -/
theorem extend {c next : Char} {run : List Char} (inside : separates c = false)
    (nextInside : separates next = false) (cut : Cut separates (next :: text) (run :: runs)) :
    Cut separates (c :: next :: text) ((c :: run) :: runs) := by
  generalize whole : next :: text = opened at cut
  cases cut with
  | @run gap _ rest _ apart filled together ends later =>
    cases gap with
    | nil =>
      exact .run (List.forall_mem_nil _) (List.cons_ne_nil c run)
        (List.forall_mem_cons.mpr ⟨inside, together⟩) ends later
    | cons separator gap =>
      obtain ⟨rfl, -⟩ := List.cons.inj whole
      rw [apart next (List.mem_cons_self ..)] at nextInside
      cases nextInside

theorem apart (cut : Cut separates text []) : ∀ c ∈ text, separates c = true := by
  cases cut with
  | gap apart => exact apart

/-- A run is a filled part of the text without separators. -/
theorem of_mem (cut : Cut separates text runs) : ∀ run ∈ runs,
    run ≠ [] ∧ (∀ c ∈ run, separates c = false) ∧ run ⊆ text := by
  induction cut with
  | gap apart => exact List.forall_mem_nil _
  | @run gap run rest runs apart filled together ends later ih =>
    intro other member
    rcases List.mem_cons.mp member with rfl | listed
    · exact ⟨filled, together, fun c inside => by simp [inside]⟩
    · obtain ⟨otherFilled, otherTogether, within⟩ := ih other listed
      exact ⟨otherFilled, otherTogether, fun c inside => by simp [within inside]⟩

theorem single {run : List Char} (filled : run ≠ []) (together : ∀ c ∈ run, separates c = false)
    (ends : ∀ c, text.head? = some c → separates c = true) (later : Cut separates text runs) :
    Cut separates (run ++ text) (run :: runs) :=
  .run (List.forall_mem_nil _) filled together ends later

end Cut

/-- Every text has its cut. -/
theorem cut_parts (separates : Char → Bool) (text : List Char) :
    Cut separates text (parts separates text) := by
  fun_induction parts separates text with
  | case1 => exact .gap (List.forall_mem_nil _)
  | case2 c rest separated ih => exact ih.cons separated
  | case3 c inside =>
    have alone : Cut separates [] [] := .gap (List.forall_mem_nil _)
    exact alone.single (List.cons_ne_nil c []) (by simpa using inside) nofun
  | case4 c inside next others separated ih =>
    refine ih.single (List.cons_ne_nil c []) (by simpa using inside) ?_
    rintro other ⟨⟩
    exact separated
  | case5 c inside next others nextInside none ih =>
    rw [none] at ih
    exact absurd (ih.apart next (List.mem_cons_self ..)) nextInside
  | case6 c inside next others nextInside part more found ih =>
    rw [found] at ih ⊢
    exact ih.extend (by simpa using inside) (by simpa using nextInside)

theorem parts_eq_nil_iff : parts separates text = [] ↔ ∀ c ∈ text, separates c = true := by
  constructor
  · intro none
    have cut := cut_parts separates text
    rw [none] at cut
    exact cut.apart
  · intro apart
    exact (Cut.gap apart).eq_parts.symm

theorem Cut.parts_append (cut : Cut separates first runs)
    (ends : ∀ c, second.head? = some c → separates c = true) :
    parts separates (first ++ second) = runs ++ parts separates second := by
  induction cut with
  | gap apart => exact parts_gap apart second
  | @run gap run rest runs apart filled together stops later ih =>
    have after : ∀ c, (rest ++ second).head? = some c → separates c = true := by
      cases rest with
      | nil => exact ends
      | cons c rest => exact stops
    rw [List.append_assoc, List.append_assoc, parts_gap apart, parts_run filled together after, ih,
      List.cons_append]

theorem of_mem_parts {part : List Char} (member : part ∈ parts separates text) :
    part ≠ [] ∧ (∀ c ∈ part, separates c = false) ∧ part ⊆ text :=
  (cut_parts separates text).of_mem part member

/-- A text that opens with a separator adds its own parts to those of the text in front of it. -/
theorem parts_append (ends : ∀ c, second.head? = some c → separates c = true) :
    parts separates (first ++ second) = parts separates first ++ parts separates second :=
  (cut_parts separates first).parts_append ends

/-- The parts of a text are all that a separator between two texts keeps of them. -/
theorem parts_between {gap : List Char} (filled : gap ≠ [])
    (apart : ∀ c ∈ gap, separates c = true) :
    parts separates (first ++ (gap ++ second)) =
      parts separates first ++ parts separates second := by
  obtain ⟨c, rest, rfl⟩ := List.exists_cons_of_ne_nil filled
  rw [parts_append, parts_gap apart]
  rintro other ⟨⟩
  exact apart c (List.mem_cons_self ..)

/-- Separators around a text make no difference to its parts. -/
theorem parts_hemmed {front back : List Char} (before : ∀ c ∈ front, separates c = true)
    (behind : ∀ c ∈ back, separates c = true) :
    parts separates (front ++ (text ++ back)) = parts separates text := by
  rw [parts_gap before, parts_append fun c first => behind c (List.mem_of_head? first),
    parts_eq_nil_iff.mpr behind, List.append_nil]

theorem parts_trimBy {drops : Char → Bool} (apart : ∀ c, drops c = true → separates c = true) :
    parts separates (Text.trimBy drops text) = parts separates text := by
  obtain ⟨front, back, before, behind, whole⟩ := Text.trimBy_hems drops text
  have hemmed : parts separates (front ++ (Text.trimBy drops text ++ back)) =
      parts separates (Text.trimBy drops text) :=
    parts_hemmed (fun c member => apart c (before c member))
      (fun c member => apart c (behind c member))
  rw [← hemmed, ← whole]

end RailSpec.TypeSpec
