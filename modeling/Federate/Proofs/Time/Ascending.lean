/-
Ordered sets as ascending lists, for any lawful comparison. An element put in its
place leaves the list ascending and is all that is new in it (`mem_place`,
`Ascending.place`), and so it is with all elements of a list put in one by one
(`mem_ordered`, `ascending_ordered`). Two ascending lists with the same elements
are the same, so that what becomes of a list does not depend on its order
(`ordered_congr`).
-/
import Federate.Time.Order
import Mathlib.Data.List.Nodup
namespace Federate.Time

variable {α : Type} {cmp : α → α → Ordering}

/-! ## Elements -/

section Elements

variable [Std.LawfulEqCmp cmp]

theorem mem_place {a b : α} {as : List α} : b ∈ place cmp a as ↔ b = a ∨ b ∈ as := by
  induction as with
  | nil => simp [place]
  | cons c cs ih =>
    rw [place]
    cases h : cmp a c with
    | lt => exact List.mem_cons
    | eq =>
      -- The element that stands there already is the one that is put in.
      obtain rfl := Std.LawfulEqCmp.eq_of_compare h
      simp
    | gt =>
      simp only [List.mem_cons, ih]
      exact or_left_comm

theorem mem_foldl_place {as sorted : List α} {b : α} :
    b ∈ as.foldl (fun sorted a => place cmp a sorted) sorted ↔ b ∈ as ∨ b ∈ sorted := by
  induction as generalizing sorted with
  | nil => simp
  | cons a as ih => rw [List.foldl_cons, ih, mem_place, List.mem_cons, or_left_comm, or_assoc]

theorem mem_ordered {as : List α} {b : α} : b ∈ ordered cmp as ↔ b ∈ as := by
  rw [ordered, mem_foldl_place]
  simp

end Elements

/-! ## Order -/

/-- Each element comes before all that follow it. -/
def Ascending (cmp : α → α → Ordering) (as : List α) : Prop :=
  as.Pairwise fun a b => cmp a b = .lt

variable [Std.TransCmp cmp]

theorem Ascending.nodup {as : List α} (h : Ascending cmp as) : as.Nodup := by
  refine List.Pairwise.imp (fun {a b} hab heq => ?_) h
  subst heq
  have equal : cmp a a = .eq := Std.ReflCmp.compare_self
  rw [equal] at hab
  cases hab

/-- An ascending list is determined by its elements. -/
theorem Ascending.ext {as bs : List α} (ha : Ascending cmp as) (hb : Ascending cmp bs)
    (same : ∀ a, a ∈ as ↔ a ∈ bs) : as = bs := by
  refine List.Perm.eq_of_pairwise (fun a b _ _ hab hba => ?_) ha hb
    ((List.perm_ext_iff_of_nodup ha.nodup hb.nodup).mpr same)
  exact absurd hba (Std.OrientedCmp.not_lt_of_lt hab)

variable [Std.LawfulEqCmp cmp]

theorem Ascending.place {as : List α} (h : Ascending cmp as) (a : α) :
    Ascending cmp (place cmp a as) := by
  induction as with
  | nil => simp [Time.place, Ascending]
  | cons c cs ih =>
    obtain ⟨first, rest⟩ := List.pairwise_cons.mp h
    rw [Time.place]
    cases hac : cmp a c with
    | lt =>
      refine List.pairwise_cons.mpr ⟨fun b hb => ?_, h⟩
      rcases List.mem_cons.mp hb with rfl | hb
      · exact hac
      · exact Std.TransCmp.lt_trans hac (first b hb)
    | eq => exact h
    | gt =>
      refine List.pairwise_cons.mpr ⟨fun b hb => ?_, ih rest⟩
      rcases mem_place.mp hb with rfl | hb
      · exact Std.OrientedCmp.gt_iff_lt.mp hac
      · exact first b hb

theorem Ascending.foldl_place {sorted : List α} (h : Ascending cmp sorted) (as : List α) :
    Ascending cmp (as.foldl (fun sorted a => Time.place cmp a sorted) sorted) := by
  induction as generalizing sorted with
  | nil => exact h
  | cons a as ih => exact ih (h.place a)

theorem ascending_ordered (as : List α) : Ascending cmp (ordered cmp as) :=
  Ascending.foldl_place .nil as

/-- Of a list nothing but its elements matters. -/
theorem ordered_congr {as bs : List α} (same : ∀ a, a ∈ as ↔ a ∈ bs) :
    ordered cmp as = ordered cmp bs := by
  refine (ascending_ordered as).ext (ascending_ordered bs) fun a => ?_
  rw [mem_ordered, mem_ordered]
  exact same a

end Federate.Time
