/-
Callback queues: pushed callbacks in the order of their arrival, of which one
at a time is out for delivery. Delivery can be held back, and a marker at the
end tells the dispatcher to stop once all before it have been delivered.
-/
import Federate.Packet.Message
namespace Federate

/-- What waits in a callback queue. -/
inductive CallbackQueue.Item where
  | request (sequence : UInt32) (callback : Envelope)
  /-- The notice that the session is lost. -/
  | lost (reason : String)
  /-- Tells the dispatcher to stop. -/
  | stop
  deriving DecidableEq, Repr

/-- A callback queue: the items at its front, first to last, and those behind them, last to
first. -/
structure CallbackQueue where
  front : List CallbackQueue.Item
  back : List CallbackQueue.Item
  enabled : Bool
  /-- An item is out for delivery. -/
  inProgress : Bool
  stopping : Bool
  deriving DecidableEq, Repr

namespace CallbackQueue

/-- A new queue, with delivery enabled. -/
def fresh : CallbackQueue where
  front := []
  back := []
  enabled := true
  inProgress := false
  stopping := false

def Item.isStop : Item → Bool
  | .stop => true
  | _ => false

/-- What waits, in the order of arrival. -/
def items (q : CallbackQueue) : List Item := q.front ++ q.back.reverse

/-- The queue with one more item at its end. -/
def push (q : CallbackQueue) (i : Item) : CallbackQueue := { q with back := i :: q.back }

/-- The queue with the marker behind everything that waits. -/
def stop (q : CallbackQueue) : CallbackQueue := { q with stopping := true }.push .stop

def setEnabled (q : CallbackQueue) (b : Bool) : CallbackQueue := { q with enabled := b }

/-- Does anything but the marker wait? -/
def hasPending (q : CallbackQueue) : Bool := q.front.any (!·.isStop) || q.back.any (!·.isStop)

/-- The first item, and the queue without it. -/
def uncons? (q : CallbackQueue) : Option (Item × CallbackQueue) :=
  match q.front with
  | i :: front => some (i, { q with front })
  | [] =>
    match q.back.reverse with
    | i :: front => some (i, { q with front, back := [] })
    | [] => none

/-- The next item for delivery, which is then out until `done`. Nothing comes while another is
out or delivery is held back, except that a stopping queue held back says to stop. -/
def next (q : CallbackQueue) : Option Item × CallbackQueue :=
  match if q.enabled && !q.inProgress then q.uncons? else none with
  | some (i, q) => (some i, { q with inProgress := !i.isStop })
  | none => (if q.stopping && !q.enabled then some .stop else none, q)

/-- The item that was out has been delivered. -/
def done (q : CallbackQueue) : CallbackQueue := { q with inProgress := false }

theorem items_push (q : CallbackQueue) (i : Item) : (q.push i).items = q.items ++ [i] := by
  simp [push, items]

theorem hasPending_eq (q : CallbackQueue) : q.hasPending = q.items.any (!·.isStop) := by
  simp [hasPending, items]

theorem items_of_uncons? {q q' : CallbackQueue} {i : Item} (h : q.uncons? = some (i, q')) :
    q.items = i :: q'.items := by
  unfold uncons? at h
  split at h
  · next hf =>
    cases h
    simp [items, hf]
  · next hf =>
    split at h
    · next hb =>
      cases h
      simp [items, hf, hb]
    · cases h

theorem uncons?_eq_none_iff {q : CallbackQueue} : q.uncons? = none ↔ q.items = [] := by
  unfold uncons?
  split
  · next hf => simp [items, hf]
  · next hf =>
    split
    · next hb => simp [items, hf, hb]
    · next hb => simpa [items, hf] using hb

theorem flags_of_uncons? {q q' : CallbackQueue} {i : Item} (h : q.uncons? = some (i, q')) :
    q'.enabled = q.enabled ∧ q'.inProgress = q.inProgress ∧ q'.stopping = q.stopping := by
  unfold uncons? at h
  split at h
  · cases h
    exact ⟨rfl, rfl, rfl⟩
  · split at h
    · cases h
      exact ⟨rfl, rfl, rfl⟩
    · cases h

/-- A queue hands out nothing; or the marker, if it is stopping and delivery is held back; or its
first item, if delivery is enabled and no other item is out. -/
theorem next_split (q : CallbackQueue) :
    (q.next = (none, q) ∨ q.next = (some .stop, q) ∧ q.stopping = true ∧ q.enabled = false) ∨
    ∃ i q', q.next = (some i, q') ∧ q.enabled = true ∧ q.inProgress = false ∧
      q.items = i :: q'.items ∧ q'.inProgress = !i.isStop ∧ q'.enabled = q.enabled ∧
      q'.stopping = q.stopping := by
  unfold next
  split
  · next i q' h =>
    split at h
    · next hfree =>
      rw [Bool.and_eq_true, Bool.not_eq_true'] at hfree
      have hflags := flags_of_uncons? h
      exact .inr ⟨i, _, rfl, hfree.1, hfree.2, (items_of_uncons? h).trans rfl, rfl, hflags.1,
        hflags.2.2⟩
    · cases h
  · split
    · next hstop =>
      rw [Bool.and_eq_true, Bool.not_eq_true'] at hstop
      exact .inl (.inr ⟨rfl, hstop⟩)
    · exact .inl (.inl rfl)

/-- When nothing is handed out, the queue stays as it is. -/
theorem of_next_none {q q' : CallbackQueue} (h : q.next = (none, q')) : q' = q := by
  rcases q.next_split with (none | ⟨marker, -⟩) | ⟨i, r, first, -⟩
  · rw [none] at h
    cases h
    rfl
  · rw [marker] at h
    cases h
  · rw [first] at h
    cases h

/-- What is handed out is the marker, and the queue stays; or it is the first item. -/
theorem of_next_some {q q' : CallbackQueue} {i : Item} (h : q.next = (some i, q')) :
    (i = .stop ∧ q' = q ∧ q.stopping = true ∧ q.enabled = false) ∨
    (q.enabled = true ∧ q.inProgress = false ∧ q.items = i :: q'.items ∧
      q'.inProgress = !i.isStop ∧ q'.enabled = q.enabled ∧ q'.stopping = q.stopping) := by
  rcases q.next_split with (none | ⟨marker, stops⟩) | ⟨j, r, first, hands⟩
  · rw [none] at h
    cases h
  · rw [marker] at h
    cases h
    exact .inl ⟨rfl, rfl, stops⟩
  · rw [first] at h
    cases h
    exact .inr hands

/-- What comes out of a queue is its first item, or nothing is taken. -/
theorem items_next (q : CallbackQueue) :
    (∃ i, q.next.1 = some i ∧ q.items = i :: q.next.2.items) ∨ q.next.2 = q := by
  rcases q.next_split with (none | ⟨marker, -⟩) | ⟨i, r, first, -, -, items, -⟩
  · exact .inr (congrArg Prod.snd none)
  · exact .inr (congrArg Prod.snd marker)
  · rw [first]
    exact .inl ⟨i, rfl, items⟩

/-- A queue that is not stopping hands out its first item, if delivery is enabled and no other item
is out, or nothing. -/
theorem next_cases (q : CallbackQueue) (running : q.stopping = false) :
    q.next = (none, q) ∨ ∃ i q', q.next = (some i, q') ∧ q.enabled = true ∧
      q.inProgress = false ∧ q.items = i :: q'.items ∧ q'.inProgress = !i.isStop ∧
      q'.stopping = false := by
  rcases q.next_split with (none | ⟨-, stopping, -⟩) | ⟨i, q', next, on, free, items, busy, -, same⟩
  · exact .inl none
  · rw [running] at stopping
    cases stopping
  · exact .inr ⟨i, q', next, on, free, items, busy, same.trans running⟩

end CallbackQueue

end Federate
