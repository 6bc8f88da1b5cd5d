import Mathlib.Data.List.Basic

/-! Computations that may fail: when they have an answer, and for which causes they fail. -/

set_option autoImplicit false

namespace LootFilter

theorem ok_of_bind {ε α β : Type} {first : Except ε α} {second : α → Except ε β} {answer : β}
    (done : (do second (← first)) = .ok answer) : ∃ value, first = .ok value ∧ second value = .ok answer := by
  cases first with
  | error cause => cases done
  | ok value => exact ⟨value, rfl, done⟩

theorem exists_ok_bind_iff {ε α β : Type} {first : Except ε α} {second : α → Except ε β} :
    (∃ answer, (first >>= second) = .ok answer) ↔ ∃ value, first = .ok value ∧ ∃ answer, second value = .ok answer := by
  cases first with
  | error cause => simp [bind, Except.bind]
  | ok value => simp [bind, Except.bind]

theorem return_eq_error_iff {ε α β : Type} {first : Except ε α} {answer : α → β} {cause : ε} :
    (do return answer (← first)) = (.error cause : Except ε β) ↔ first = .error cause := by
  cases first with
  | error other => simp [bind, Except.bind]
  | ok value => simp [bind, Except.bind, pure, Except.pure]

theorem mapError_eq_ok_iff {ε κ α : Type} {result : Except ε α} {change : ε → κ} {value : α} :
    result.mapError change = .ok value ↔ result = .ok value := by
  cases result with
  | error cause => simp [Except.mapError]
  | ok found => simp [Except.mapError]

theorem map_eq_ok_iff {ε α β : Type} {result : Except ε α} {change : α → β} {answer : β} :
    result.map change = .ok answer ↔ ∃ value, result = .ok value ∧ change value = answer := by
  cases result with
  | error cause => simp [Except.map]
  | ok value => simp [Except.map]

theorem map_eq_error_iff {ε α β : Type} {result : Except ε α} {change : α → β} {cause : ε} :
    result.map change = .error cause ↔ result = .error cause := by
  cases result with
  | error other => simp [Except.map]
  | ok value => simp [Except.map]

theorem exists_mapM_ok {ε α β : Type} {items : List α} {action : α → Except ε β}
    (each : ∀ item ∈ items, ∃ answer, action item = .ok answer) : ∃ answers, items.mapM action = .ok answers := by
  induction items with
  | nil => exact ⟨[], rfl⟩
  | cons item rest ih =>
    obtain ⟨first, found⟩ := each item List.mem_cons_self
    obtain ⟨others, later⟩ := ih fun other member => each other (List.mem_cons_of_mem _ member)
    refine ⟨first :: others, ?_⟩
    rw [List.mapM_cons, found, later]
    rfl

/-- A computation has an answer, or fails for an allowed cause. -/
def FailsOnly {ε α : Type} (allowed : ε → Prop) (result : Except ε α) : Prop :=
  ∀ cause, result = .error cause → allowed cause

namespace FailsOnly

variable {ε α β : Type} {allowed : ε → Prop}

theorem ok (value : α) : FailsOnly allowed (.ok value) := nofun

theorem error {cause : ε} (good : allowed cause) : FailsOnly allowed (.error cause : Except ε α) := by
  rintro _ ⟨⟩
  exact good

theorem bind {first : Except ε α} {second : α → Except ε β} (one : FailsOnly allowed first)
    (other : ∀ value, first = .ok value → FailsOnly allowed (second value)) :
    FailsOnly allowed (first >>= second) := by
  cases first with
  | error cause => exact error (one cause rfl)
  | ok value => exact other value rfl

theorem mapM {items : List α} {action : α → Except ε β} (each : ∀ item ∈ items, FailsOnly allowed (action item)) :
    FailsOnly allowed (items.mapM action) := by
  induction items with
  | nil => exact ok []
  | cons item rest ih =>
    rw [List.mapM_cons]
    refine bind (each item List.mem_cons_self) fun _ _ => ?_
    refine bind (ih fun other member => each other (List.mem_cons_of_mem _ member)) fun _ _ => ?_
    exact ok _

theorem mapError {κ : Type} {wanted : κ → Prop} {result : Except ε α} {change : ε → κ} (one : FailsOnly allowed result)
    (kept : ∀ cause, allowed cause → wanted (change cause)) : FailsOnly wanted (result.mapError change) := by
  cases result with
  | error cause => exact error (kept cause (one cause rfl))
  | ok value => exact ok value

end FailsOnly

end LootFilter
