/-
Marks. An operation that asks for a switch to be turned on, or for time to
advance, leaves a mark in the standing when it is accepted. There was room for
the mark then, since accepting looks for it in the same step
(`place_of_accept`); retracting takes a mark of the operation's kind away, if
one stands (`retract_of_mark`). So an operation that is retracted right after
it was accepted has changed nothing (`retract_of_accept`).

A mark has no name on it: who placed the one that stands, the standing does not
say.
-/
import Federate.Standing
namespace Federate

/-- What an accepted operation leaves in a standing. -/
inductive Mark where
  | regulation
  | constrained
  | advance (a : Advance)
  deriving DecidableEq, Repr

namespace Mark

/-- The mark of an operation. -/
def of? : Operation → Option Mark
  | .known service =>
    match service with
    | .enableTimeRegulation => some .regulation
    | .enableTimeConstrained => some .constrained
    | _ => (Advance.ofService? service).map .advance
  | .other _ _ => none

/-- The mark is there. -/
def Stands : Mark → Standing → Prop
  | .regulation, s => s.regulation = .pending
  | .constrained, s => s.constrained = .pending
  | .advance a, s => s.advance = some a

instance (x : Mark) (s : Standing) : Decidable (x.Stands s) :=
  match x with
  | .regulation => inferInstanceAs (Decidable (s.regulation = .pending))
  | .constrained => inferInstanceAs (Decidable (s.constrained = .pending))
  | .advance a => inferInstanceAs (Decidable (s.advance = some a))

/-- There is room for the mark. An advance and a switch that is asked for shut each other out. -/
def Room : Mark → Standing → Prop
  | .regulation, s => s.regulation = .disabled ∧ s.advance = none
  | .constrained, s => s.constrained = .disabled ∧ s.advance = none
  | .advance _, s => s.advance = none ∧ s.regulation ≠ .pending ∧ s.constrained ≠ .pending

/-- The standing with the mark. -/
def place : Mark → Standing → Standing
  | .regulation, s => { s with regulation := .pending }
  | .constrained, s => { s with constrained := .pending }
  | .advance a, s => { s with advance := some a }

/-- The standing without the mark. -/
def clear : Mark → Standing → Standing
  | .regulation, s => { s with regulation := .disabled }
  | .constrained, s => { s with constrained := .disabled }
  | .advance _, s => { s with advance := none }

variable {x y : Mark} {s : Standing}

theorem stands_place (x : Mark) (s : Standing) : x.Stands (x.place s) := by
  cases x <;> rfl

theorem not_stands_clear (x : Mark) (s : Standing) : ¬ x.Stands (x.clear s) := by
  cases x <;> simp [Stands, clear]

theorem clear_place (room : x.Room s) : x.clear (x.place s) = s := by
  obtain ⟨connected, joined, regulation, constrained, advance, save, restore, family⟩ := s
  cases x with
  | regulation => obtain ⟨rfl, -⟩ := room; rfl
  | constrained => obtain ⟨rfl, -⟩ := room; rfl
  | advance a => obtain ⟨rfl, -, -⟩ := room; rfl

/-- Clearing brings no mark about. -/
theorem stands_of_stands_clear (h : x.Stands (y.clear s)) : x.Stands s := by
  cases x <;> cases y <;> first | exact h | cases h

/-- Clearing a mark that is there leaves the others alone. -/
theorem stands_clear_other (hx : x.Stands s) (hne : y ≠ x) :
    y.Stands (x.clear s) ↔ y.Stands s := by
  cases x with
  | regulation => cases y <;> first | exact absurd rfl hne | rfl
  | constrained => cases y <;> first | exact absurd rfl hne | rfl
  | advance a =>
    cases y with
    | regulation | constrained => rfl
    | advance b =>
      have hab : a ≠ b := fun h => hne (h ▸ rfl)
      have hs : s.advance = some a := hx
      simp [Stands, clear, hs, hab]

end Mark

namespace Standing

variable {s s' : Standing} {op : Operation} {inCallback : Bool} {x : Mark}

/-- A request for an advance is met only when nothing is pending. -/
theorem place_of_begin_advance {service : Service} {a : Advance}
    (asked : Advance.ofService? service = some a) (h : s.begin service = .ok s') :
    (Mark.advance a).Room s ∧ s' = (Mark.advance a).place s := by
  cases service with
  | timeAdvanceRequest | timeAdvanceRequestAvailable | nextMessageRequest
  | nextMessageRequestAvailable | flushQueueRequest =>
    cases asked
    obtain ⟨still, h⟩ := advanceIdle_bind.mp h
    split at h
    · cases h
    split at h
    · cases h
    · next hr hc => cases h; exact ⟨⟨still, hr, hc⟩, rfl⟩
  | _ => cases asked

/-- An operation with a mark begins only where there is room for the mark, and places it. -/
theorem place_of_begin {service : Service} (mark : Mark.of? (.known service) = some x)
    (h : s.begin service = .ok s') : x.Room s ∧ s' = x.place s := by
  by_cases hr : service = .enableTimeRegulation
  · subst hr
    cases mark
    simp only [begin] at h
    split at h
    · cases h
    · cases h
    · next off =>
      obtain ⟨still, h⟩ := advanceIdle_bind.mp h
      cases h
      exact ⟨⟨off, still⟩, rfl⟩
  by_cases hc : service = .enableTimeConstrained
  · subst hc
    cases mark
    simp only [begin] at h
    split at h
    · cases h
    · cases h
    · next off =>
      obtain ⟨still, h⟩ := advanceIdle_bind.mp h
      cases h
      exact ⟨⟨off, still⟩, rfl⟩
  obtain ⟨a, asked, rfl⟩ : ∃ a, Advance.ofService? service = some a ∧ .advance a = x := by
    simpa [Mark.of?, hr, hc] using mark
  exact place_of_begin_advance asked h

/-- An accepted operation with a mark found room for it, and has placed it. -/
theorem place_of_accept (mark : Mark.of? op = some x) (h : s.accept op inCallback = .ok s') :
    x.Room s ∧ s' = x.place s := by
  rcases accept_cases h with
    ⟨-, -, ⟨rfl, -⟩ | ⟨rfl, -⟩⟩ | ⟨-, ⟨service, rfl, hb⟩ | ⟨tag, scope, rfl, -⟩⟩
  · cases mark
  · cases mark
  · exact place_of_begin mark hb
  · cases mark

/-- An accepted operation without a mark changes nothing. -/
theorem eq_of_accept (none : Mark.of? op = none) (h : s.accept op inCallback = .ok s') :
    s' = s := by
  rcases accept_cases h with ⟨rfl, -⟩ | ⟨-, ⟨service, rfl, hb⟩ | ⟨tag, scope, -, rfl⟩⟩
  · rfl
  · cases begin_cases hb with
    | unchanged => rfl
    | regulation | constrained => cases none
    | advance asked =>
      simp only [Mark.of?] at none
      split at none <;> simp [asked] at none
  · rfl

/-- Retracting an operation takes its mark away, if such a mark stands. -/
theorem retract_of_mark (mark : Mark.of? op = some x) (s : Standing) :
    s.retract op = if x.Stands s then x.clear s else s := by
  cases op with
  | other => cases mark
  | known service =>
    cases service with
    | enableTimeRegulation | enableTimeConstrained | timeAdvanceRequest
    | timeAdvanceRequestAvailable | nextMessageRequest | nextMessageRequestAvailable
    | flushQueueRequest => cases mark; rfl
    | _ => cases mark

/-- An operation without a mark has nothing to retract. -/
theorem retract_of_no_mark (none : Mark.of? op = none) (s : Standing) : s.retract op = s := by
  cases op with
  | other => rfl
  | known service =>
    cases service <;> first | rfl | cases none

/-- Retracting an operation right after it was accepted leaves the standing as it was. -/
theorem retract_of_accept (h : s.accept op inCallback = .ok s') : s'.retract op = s := by
  cases hx : Mark.of? op with
  | none => rw [retract_of_no_mark hx, eq_of_accept hx h]
  | some x =>
    obtain ⟨room, rfl⟩ := place_of_accept hx h
    rw [retract_of_mark hx, if_pos (x.stands_place s), Mark.clear_place room]

end Standing

end Federate
