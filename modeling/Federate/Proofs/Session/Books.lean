/-
The books of a session: what its tally shows, and how many callbacks wait in its
queue. Whoever works on the session carries at most one thing that the books do
not show yet: a call whose packet the link has accepted, an answer that has just
come, a callback that is out for delivery. One step of a party books what it
carries, and leaves the rest of the books alone.
-/
import Federate.Ambassador.Delivery
import Federate.Proofs.Session.Loss
import Federate.Proofs.Session.Receipt
namespace Federate

/-- What a session shows of its traffic. -/
structure Books where
  /-- Calls that were sent, awaited or not. -/
  sent : Nat
  answers : Nat
  faults : Nat
  callbacks : Nat
  /-- Callbacks that were dispatched, and those that failed. -/
  settled : Nat
  /-- Callbacks and notices in the queue. -/
  waiting : Nat

/-- How many items wait, the marker not counted. -/
def CallbackQueue.waiting (q : CallbackQueue) : Nat := q.items.countP (!·.isStop)

def Session.books (s : Session) : Books where
  sent := s.tally.callsSent + s.tally.castsSent
  answers := s.tally.responsesReceived
  faults := s.tally.faultsReceived
  callbacks := s.tally.callbacksReceived
  settled := s.tally.callbacksDispatched + s.tally.callbacksFailed
  waiting := s.queue.waiting

/-! ## The queue -/

namespace CallbackQueue

theorem waiting_push (q : CallbackQueue) (i : Item) :
    (q.push i).waiting = q.waiting + (!i.isStop).toNat := by
  rw [waiting, items_push, List.countP_append, List.countP_singleton, waiting]
  cases i.isStop <;> rfl

theorem waiting_stop (q : CallbackQueue) : q.stop.waiting = q.waiting := waiting_push _ .stop

/-- What is handed out waits no longer. -/
theorem waiting_next (q : CallbackQueue) :
    q.next.2.waiting + (q.next.1.any (!·.isStop)).toNat = q.waiting := by
  rcases q.next_split with (none | ⟨marker, -⟩) | ⟨i, r, first, -, -, items, -⟩
  · rw [none]
    rfl
  · rw [marker]
    rfl
  · rw [first, waiting, waiting, items, List.countP_cons]
    cases hi : i.isStop <;> simp [hi]

end CallbackQueue

/-! ## Calls -/

namespace Call

/-- The link has accepted the packet, and the books do not show it. -/
def Stage.unbooked : Stage → Bool
  | .accepted _ => true
  | _ => false

/-- Does the verdict let the packet of a call go out? -/
def Stage.goesOut : Stage → Except LinkFault Unit → Bool
  | .offered _ _ _, .ok () => true
  | _, _ => false

theorem books_step (c : Call) (s : Session) :
    (c.step s).1.stage.unbooked = false ∧
      (c.step s).2.books = { s.books with sent := s.books.sent + c.stage.unbooked.toNat } := by
  cases hs : c.stage with
  | arriving | entered n =>
    cases hl : s.lost <;> simp only [step, hs, hl] <;> exact ⟨rfl, rfl⟩
  | accepted n =>
    cases ht : c.ticket with
    | none =>
      simp only [step, hs, ht]
      exact ⟨rfl, rfl⟩
    | some k =>
      simp only [step, hs, ht]
      exact ⟨rfl, congrArg (fun n => { s.books with sent := n }) (Nat.add_right_comm _ 1 _)⟩
  | waiting n =>
    cases ht : c.ticket with
    | none =>
      simp only [step, hs, ht]
      exact ⟨rfl, rfl⟩
    | some k =>
      simp only [step, hs, ht, Session.collect]
      cases (s.slot k).take.1 with
      | none => exact ⟨by rw [hs]; rfl, rfl⟩
      | some w => exact ⟨rfl, rfl⟩
  | _ =>
    simp only [step, hs]
    exact ⟨rfl, rfl⟩

theorem books_heard (c : Call) (verdict : Except LinkFault Unit) (s : Session) :
    (c.heard verdict s).1.stage.unbooked.toNat =
        c.stage.unbooked.toNat + (c.stage.goesOut verdict).toNat ∧
      (c.heard verdict s).2.books = s.books := by
  unfold heard
  cases hs : c.stage with
  | offered m n packet => cases verdict <;> exact ⟨rfl, rfl⟩
  | _ => exact ⟨congrArg (·.unbooked.toNat) hs, rfl⟩

theorem books_expire (c : Call) (s : Session) :
    (c.expire s).1.stage.unbooked = c.stage.unbooked ∧ (c.expire s).2.books = s.books := by
  unfold expire
  split
  · next stage ticket =>
    split
    · exact ⟨rfl, rfl⟩
    · rw [stage]
      exact ⟨rfl, rfl⟩
  · exact ⟨rfl, rfl⟩

end Call

/-! ## Answers and losses -/

namespace Receipt

/-- The answer has come, and the books do not show it. -/
def Stage.unbooked : Stage → Bool
  | .counting => true
  | _ => false

/-- Does the answer report a fault? -/
def isFault (a : Receipt) : Bool :=
  match a.outcome with
  | .fault _ _ => true
  | .result _ => false

/-- So says the program that counts it. -/
theorem isFault_eq (a : Receipt) : Presence.isFault a.outcome = a.isFault := by
  unfold isFault Presence.isFault
  cases a.outcome <;> rfl

theorem books_step (a : Receipt) (p : Presence) :
    (a.step p).1.outcome = a.outcome ∧ (a.step p).1.stage.unbooked = false ∧
      (a.step p).2.session.books = { p.session.books with
        answers := p.session.books.answers + a.stage.unbooked.toNat
        faults := p.session.books.faults + (a.stage.unbooked && a.isFault).toNat } := by
  cases hs : a.stage with
  | claiming =>
    simp only [step, hs, Session.claim]
    refine ⟨rfl, ?_, rfl⟩
    cases p.session.pending.lookup a.number with
    | none => rfl
    | some entry => cases entry <;> rfl
  | noting ticket tag =>
    simp only [step, hs, Presence.noteOutcome, Presence.noteJoin]
    refine ⟨rfl, rfl, ?_⟩
    split
    · split
      · split <;> rfl
      · rfl
    · rfl
  | counting =>
    simp only [step, hs, isFault_eq]
    exact ⟨rfl, rfl, rfl⟩
  | waking ticket =>
    simp only [step, hs]
    exact ⟨rfl, rfl, rfl⟩
  | ended =>
    have same : a.step p = (a, p) := by rw [step, hs]
    rw [same]
    exact ⟨rfl, congrArg (·.unbooked) hs, rfl⟩

end Receipt

namespace Loss

/-- Is the notice queued next? -/
def Stage.tells : Stage → Bool
  | .telling => true
  | _ => false

theorem books_wakePending (s : Session) (e : Session.Pending) (w : Session.Wakening) :
    (s.wakePending e w).books = s.books := by
  cases e <;> rfl

theorem books_step (l : Loss) (p : Presence) :
    (l.step p).2.session.books =
      { p.session.books with waiting := p.session.books.waiting + l.stage.tells.toNat } := by
  cases hs : l.stage with
  | striking => cases hl : p.session.lost <;> simp only [step, hs, hl] <;> rfl
  | waking rest =>
    cases rest with
    | nil =>
      simp only [step, hs]
      rfl
    | cons e rest =>
      simp only [step, hs]
      exact books_wakePending p.session e l.wakening
  | telling =>
    have told := p.session.queue.waiting_push (.lost l.reason)
    simp only [step, hs]
    exact congrArg (fun n => { p.session.books with waiting := n }) told
  | _ =>
    simp only [step, hs]
    rfl

end Loss

/-! ## Packets -/

namespace Packet

def isCallback (p : Packet) : Bool := p.message.kind == .callbackRequest

/-- The outcome in the answer to a call. -/
def outcome? (p : Packet) : Option CallOutcome :=
  match p.message with
  | .callResponse _ outcome => some outcome
  | _ => none

theorem books_receive {packet : Packet} (p : Presence) (now : Duration)
    (other : ∀ n outcome, packet.message ≠ .callResponse n outcome) :
    (p.receive packet now).2.session.books = { p.session.books with
      callbacks := p.session.books.callbacks + packet.isCallback.toNat
      waiting := p.session.books.waiting + packet.isCallback.toNat } := by
  unfold Presence.receive isCallback
  cases hm : packet.message with
  | callResponse n outcome => exact absurd hm (other n outcome)
  | callbackRequest e =>
    have queued := p.session.queue.waiting_push (.request packet.header.sequenceNumber e)
    exact congrArg (fun n => { p.session.books with
      callbacks := p.session.books.callbacks + 1, waiting := n }) queued
  | _ => rfl

end Packet

/-! ## Deliveries -/

namespace Ambassador

theorem session_onSession {α : Type} {a : Ambassador} {i : Nat} (f : Session → α × Session)
    (known : i < a.sessions.length) : (a.onSession i f).2.session i = (f (a.session i)).2 :=
  a.session_alterSession _ known

theorem length_onSession {α : Type} (a : Ambassador) (i : Nat) (f : Session → α × Session) :
    (a.onSession i f).2.sessions.length = a.sessions.length :=
  List.length_modify ..

theorem length_onPresence {α : Type} (a : Ambassador) (i : Nat) (f : Presence → α × Presence) :
    (a.onPresence i f).2.sessions.length = a.sessions.length :=
  List.length_set ..

end Ambassador

namespace Delivery

/-- The item is out, and the books do not show what came of it. The marker is never shown. -/
def Stage.unbooked : Delivery.Stage → Bool
  | .taken item => !item.isStop
  | .observing _ _ | .entering _ _ | .handling _ _ | .leaving _ _ | .counting _ _ => true
  | .taking | .answering _ _ | .offered _ | .finishing | .ended _ => false

/-- Has the link the answer? -/
def Stage.offers : Delivery.Stage → Bool
  | .offered _ => true
  | _ => false

theorem unbooked_examine (family : Option TimeFamily) (item : CallbackQueue.Item) :
    (examine family item).unbooked = !item.isStop := by
  cases item with
  | request n e =>
    simp only [examine]
    split <;> rfl
  | _ => rfl

theorem unbooked_receive (d : Delivery) (item : CallbackQueue.Item) :
    (d.receive item).unbooked = !item.isStop := by
  unfold receive
  split
  · next h =>
    rw [Bool.and_eq_true] at h
    rw [h.1]
    rfl
  · rfl

/-- What was waiting or out is settled, out or waiting still. -/
structure Carries (b b' : Books) (before after : Bool) : Prop where
  sent : b'.sent = b.sent
  answers : b'.answers = b.answers
  faults : b'.faults = b.faults
  callbacks : b'.callbacks = b.callbacks
  kept : b'.settled + b'.waiting + after.toNat = b.settled + b.waiting + before.toNat

theorem Carries.same {b b' : Books} {before after : Bool} (books : b' = b)
    (out : after = before) : Carries b b' before after := by
  subst books out
  exact ⟨rfl, rfl, rfl, rfl, rfl⟩

theorem settled_tally (s : Session) (fault : Option Fault) :
    (s.count (tally fault)).books = { s.books with settled := s.books.settled + 1 } := by
  cases fault with
  | none => exact congrArg (fun n => { s.books with settled := n }) (Nat.add_right_comm _ 1 _)
  | some e => rfl

theorem books_step (d : Delivery) {a : Ambassador} (known : d.session < a.sessions.length) :
    Carries (a.session d.session).books ((d.step a).2.session d.session).books d.stage.unbooked
      (d.step a).1.stage.unbooked := by
  cases hs : d.stage with
  | taking =>
    have after := a.session_onSession (fun s => (s.queue.next.1, s.onQueue (·.next.2))) known
    have kept := (a.session d.session).queue.waiting_next
    simp only [step, hs, Ambassador.onSession] at after ⊢
    cases hn : (a.session d.session).queue.next.1 with
    | none =>
      simp only [hn] at kept ⊢
      rw [after]
      exact ⟨rfl, rfl, rfl, rfl, congrArg (_ + ·) kept⟩
    | some item =>
      simp only [hn] at kept ⊢
      rw [after]
      refine ⟨rfl, rfl, rfl, rfl, ?_⟩
      rw [show (d.goTo (d.receive item)).stage.unbooked = _ from d.unbooked_receive item]
      exact (Nat.add_assoc ..).trans (congrArg (_ + ·) kept)
  | taken item =>
    simp only [step, hs]
    exact .same rfl (unbooked_examine _ item)
  | counting n fault =>
    have after := a.session_alterSession (·.count (tally fault)) known
    simp only [step, hs]
    rw [after, settled_tally]
    exact ⟨rfl, rfl, rfl, rfl, Nat.add_right_comm _ 1 _⟩
  | answering n fault =>
    cases n with
    | none =>
      simp only [step, hs]
      exact .same rfl rfl
    | some n =>
      have after := a.session_onSession (·.offer (.callbackResponse n (.ofFault? fault))) known
      simp only [step, hs]
      split
      · exact .same rfl rfl
      · rw [after]
        exact .same rfl rfl
  | finishing =>
    have after := a.session_alterSession (·.onQueue .done) known
    simp only [step, hs]
    rw [after]
    exact .same rfl rfl
  | _ =>
    simp only [step, hs]
    exact .same rfl rfl

theorem length_step (d : Delivery) (a : Ambassador) :
    (d.step a).2.sessions.length = a.sessions.length := by
  cases hs : d.stage with
  | taking =>
    have length := a.length_onSession d.session fun s => (s.queue.next.1, s.onQueue (·.next.2))
    simp only [step, hs, Ambassador.onSession] at length ⊢
    cases (a.session d.session).queue.next.1 <;> exact length
  | counting n fault =>
    simp only [step, hs]
    exact a.length_alterSession _ _
  | answering n fault =>
    cases n with
    | none => simp only [step, hs]
    | some n =>
      simp only [step, hs]
      split
      · rfl
      · exact a.length_onSession _ _
  | finishing =>
    simp only [step, hs]
    exact a.length_alterSession _ _
  | _ => simp only [step, hs]

theorem unbooked_returned (d : Delivery) (h : Handling) :
    (d.returned h).stage.unbooked = d.stage.unbooked := by
  unfold returned
  split
  · next stage =>
    rw [stage]
    rfl
  · rfl

theorem unbooked_heard (d : Delivery) : d.heard.stage.unbooked = d.stage.unbooked := by
  unfold heard
  split
  · next stage =>
    rw [stage]
    rfl
  · rfl

end Delivery

end Federate
