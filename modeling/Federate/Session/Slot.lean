/-
Slots: places where one party leaves an outcome for another that waits for it.
The first outcome counts, and it can be taken out once.
-/
namespace Federate

/-- A place for one outcome. -/
inductive Slot (α : Type) where
  | empty
  | filled (a : α)
  | taken
  deriving DecidableEq, Repr

namespace Slot

variable {α : Type}

/-- The slot with an outcome put in, unless there was one before. -/
def complete (a : α) : Slot α → Slot α
  | .empty => .filled a
  | s => s

/-- The outcome that waits in the slot, and the slot without it. -/
def take : Slot α → Option α × Slot α
  | .filled a => (some a, .taken)
  | s => (none, s)

/-- Does an outcome wait in the slot? -/
def ready : Slot α → Bool
  | .filled _ => true
  | _ => false

theorem complete_complete (a b : α) (s : Slot α) :
    complete b (complete a s) = complete a s := by cases s <;> rfl

theorem take_take (s : Slot α) : (take (take s).2).1 = none := by cases s <;> rfl

theorem ready_iff_take {s : Slot α} : s.ready = true ↔ ∃ a, s.take = (some a, .taken) := by
  cases s <;> simp [ready, take]

end Slot

end Federate
