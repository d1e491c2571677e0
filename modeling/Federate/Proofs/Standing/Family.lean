/-
The time family of a standing. It is settled by the latest step that settles one
or leaves none (`family_run`): a join settles the family of its federation, and
whoever leaves, connects or falls back to nothing has none.
-/
import Federate.Proofs.Standing.Exclusion
namespace Federate.Standing

/-- The family that a step settles, or that it leaves none; most steps leave it alone. -/
def Move.family? : Move → Option (Option TimeFamily)
  | .join family => some (some family)
  | .connect | .reset => some none
  | .confirm op => if op = .known .resignFederationExecution then some none else none
  | .observe kind => if kind = .federateResigned ∨ kind = .connectionLost then some none else none
  | .accept _ _ | .retract _ => none

theorem family_after (s : Standing) (m : Move) : (s.after m).family = m.family?.getD s.family := by
  cases m with
  | accept op inCallback =>
    rcases s.after_accept op inCallback with h | ⟨x, -, h⟩
    · rw [h]
      rfl
    · rw [h]
      cases x <;> rfl
  | retract op =>
    show (s.retract op).family = s.family
    cases hy : Mark.of? op with
    | none => rw [retract_of_no_mark hy]
    | some y =>
      rw [retract_of_mark hy]
      split
      · cases y <;> rfl
      · rfl
  | join family => rfl
  | connect => rfl
  | reset => rfl
  | observe kind => cases kind <;> rfl
  | confirm op =>
    cases op with
    | other tag scope => rfl
    | known service =>
      cases service with
      | requestFederationSave | federateSaveComplete | federateSaveNotComplete
      | federateRestoreComplete | federateRestoreNotComplete =>
        simp only [after, confirm]
        split <;> rfl
      | _ => rfl

/-- The family after some steps, when there was one before, or none. -/
def settled (f : Option TimeFamily) (ms : List Move) : Option TimeFamily :=
  (ms.filterMap Move.family?).getLast?.getD f

/-- **The family is that of the latest step that settles one.** -/
theorem family_run (s : Standing) (ms : List Move) :
    (s.run ms).family = settled s.family ms := by
  induction ms generalizing s with
  | nil => rfl
  | cons m ms ih =>
    rw [run_cons, ih, family_after, settled, settled, List.filterMap_cons]
    cases m.family? with
    | none => rfl
    | some f => rw [List.getLast?_cons]; cases (ms.filterMap Move.family?).getLast? <;> rfl

/-- Steps that leave the family alone leave it as it was. -/
theorem settled_of_none {f : Option TimeFamily} {ms : List Move}
    (h : ∀ m ∈ ms, m.family? = none) : settled f ms = f := by
  rw [settled, List.filterMap_eq_nil_iff.mpr h]
  rfl

end Federate.Standing
