import RailSpec.Schema.Extract
import RailSpec.Proofs.Result

/-!
Extraction along a walk. What two stretches of a walk declare is what the first declares and then
what the second does, and a stretch without calls and blocks declares nothing.
-/

namespace RailSpec.Schema

open Declaration (Fault hasTag blockTags callTags)
open Node (Visit)

variable (source : Source)

theorem declaredIn_append (first second : List Visit) :
    declaredIn source (first ++ second) = do
      let found ← declaredIn source first
      let others ← declaredIn source second
      return found ++ others := by
  induction first with
  | nil =>
    rw [List.nil_append]
    cases declaredIn source second <;> rfl
  | cons visit rest ih =>
    rw [List.cons_append, declaredIn, declaredIn, ih]
    cases declaredAt source visit with
    | error fault => rfl
    | ok found =>
      cases declaredIn source rest with
      | error fault => rfl
      | ok others =>
        cases declaredIn source second with
        | error fault => rfl
        | ok last => exact congrArg Except.ok (List.append_assoc ..).symm

theorem declaredIn_append_ok {first second : List Visit} {found others : List Declared}
    (before : declaredIn source first = .ok found) (after : declaredIn source second = .ok others) :
    declaredIn source (first ++ second) = .ok (found ++ others) := by
  rw [declaredIn_append, before, after]
  rfl

theorem declaredIn_cons_ok {visit : Visit} {rest : List Visit} {found : Option Declared}
    {others : List Declared} (here : declaredAt source visit = .ok found)
    (after : declaredIn source rest = .ok others) :
    declaredIn source (visit :: rest) = .ok (found.toList ++ others) := by
  rw [declaredIn, here, after]
  rfl

/-- Neither a call nor a block is met. -/
def Quiet (met : List Visit) : Prop :=
  ∀ visit ∈ met, hasTag blockTags visit.fields = false ∧ hasTag callTags visit.fields = false

theorem Quiet.append {first second : List Visit} (before : Quiet first) (after : Quiet second) :
    Quiet (first ++ second) := by
  intro visit member
  rcases List.mem_append.mp member with early | late
  · exact before visit early
  · exact after visit late

theorem Quiet.of_fields {first second : List Visit}
    (same : second.map Visit.fields = first.map Visit.fields) (quiet : Quiet first) : Quiet second := by
  intro visit member
  obtain ⟨other, met, equal⟩ := List.mem_map.mp (same ▸ List.mem_map_of_mem member)
  rw [← equal]
  exact quiet other met

theorem declaredAt_quiet {visit : Visit} (block : hasTag blockTags visit.fields = false)
    (call : hasTag callTags visit.fields = false) : declaredAt source visit = .ok none := by
  simp [declaredAt, Declaration.tableCall, Declaration.enumCall, block, call, ok_mapError, bind,
    Except.bind, pure, Except.pure]

theorem declaredIn_quiet {met : List Visit} (quiet : Quiet met) : declaredIn source met = .ok [] := by
  induction met with
  | nil => rfl
  | cons visit rest ih =>
    obtain ⟨block, call⟩ := quiet visit (by simp)
    have others := ih fun later member => quiet later (by simp [member])
    exact declaredIn_cons_ok source (declaredAt_quiet source block call) others

theorem declaredIn_before {quiet : List Visit} (silent : Quiet quiet) (met : List Visit) :
    declaredIn source (quiet ++ met) = declaredIn source met := by
  rw [declaredIn_append, declaredIn_quiet source silent]
  cases declaredIn source met <;> rfl

theorem declaredIn_after {quiet : List Visit} (silent : Quiet quiet) (met : List Visit) :
    declaredIn source (met ++ quiet) = declaredIn source met := by
  rw [declaredIn_append, declaredIn_quiet source silent]
  cases declaredIn source met with
  | error fault => rfl
  | ok found => exact congrArg Except.ok (List.append_nil found)

end RailSpec.Schema
