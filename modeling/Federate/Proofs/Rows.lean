/-
Tables whose rows are numbered, as functions and as lists: what is in a table
after one row has been written.
-/
import Mathlib.Logic.Function.Basic
namespace Federate

open Function (update)

variable {α : Type} {f : Nat → Option α} {i j : Nat} {a b : α}

/-- A table with one row changed has the changed row, and the others as before. -/
theorem of_update (h : update f i (some a) j = some b) : j = i ∧ b = a ∨ j ≠ i ∧ f j = some b := by
  rw [Function.update_apply] at h
  split at h
  · next hj => exact .inl ⟨hj, (Option.some.inj h).symm⟩
  · next hj => exact .inr ⟨hj, h⟩

/-- A row that is missing when another has been written was missing before. -/
theorem none_of_update (h : update f i (some a) j = none) : j ≠ i ∧ f j = none := by
  rw [Function.update_apply] at h
  split at h
  · cases h
  · next hj => exact ⟨hj, h⟩

/-- A new row leaves the others as they are. -/
theorem update_of_new (new : f i = none) (h : f j = some b) :
    update f i (some a) j = some b := by
  have hj : j ≠ i := by
    intro heq
    subst heq
    rw [new] at h
    cases h
  rw [Function.update_of_ne hj, h]

/-- What holds of a row holds of it still when one row is rewritten, if the writing keeps it. -/
theorem row_of_update {P : Nat → α → Prop} (known : f i = some a) (keep : P i a → P i b)
    (h : ∃ c, f j = some c ∧ P j c) : ∃ c, update f i (some b) j = some c ∧ P j c := by
  obtain ⟨c, hc, hp⟩ := h
  by_cases hj : j = i
  · subst hj
    rw [known] at hc
    cases hc
    exact ⟨b, Function.update_self .., keep hp⟩
  · exact ⟨c, by rw [Function.update_of_ne hj, hc], hp⟩

/-! ## Lists -/

section

variable {β : Type} {l : List α} {k : Nat} {p : α → Bool}

/-- Writing a row counts the new row in place of the old one. -/
theorem countP_set_row (known : l[k]? = some a) (b : α) :
    (l.set k b).countP p + (p a).toNat = l.countP p + (p b).toNat := by
  induction l generalizing k with
  | nil => cases known
  | cons c l ih =>
    cases k with
    | zero =>
      cases known
      rw [List.set_cons_zero, List.countP_cons, List.countP_cons]
      cases p a <;> cases p b <;> simp
    | succ k =>
      have rest := ih known
      rw [List.set_cons_succ, List.countP_cons, List.countP_cons]
      omega

/-- A row that looks the same is written. -/
theorem map_set_row {g : α → β} (known : l[k]? = some a) (same : g b = g a) :
    (l.set k b).map g = l.map g := by
  obtain ⟨hk, rfl⟩ := List.getElem?_eq_some_iff.mp known
  have row : (l.map g).get ⟨k, by simpa using hk⟩ = g l[k] := List.getElem_map ..
  rw [List.map_set, same, ← row]
  exact List.set_getElem_self _

end

end Federate
