/-
How a session comes to its end, over a link within one process. The link's
reader takes up one packet after another: it queues callbacks, answers calls,
and loses the session when the coordinator says so or the link is cut. Anybody
else may lose the session too: a caller whose wait is over, the heartbeat, the
federate that ends it. Whoever loses it closes the link; then everybody but the
reader itself waits for the reader to come to its end. All of them have their
next step at any time, and between the steps the peer sends packets and cuts the
link, the queue hands out callbacks and is stopped, and the standing moves.

Beside it all, an observer notes what was pushed and what was handed out, what
was done to the standing, whether the federate was ending the session when it
was struck, and which callbacks the reader had still to take up when the notice
was pushed. No step looks at these notes.
-/
import Federate.Proofs.Ambassador.Affairs
import Federate.Proofs.Session.Teardown
import Federate.Proofs.Session.Unread
namespace Federate

open Function (update)

/-- What the reader of a link is doing. -/
inductive Reading where
  | idle
  | answering (r : Receipt)
  /-- It has taken up that the session is at its end, and loses it. -/
  | losing (j : Nat)

/-- A session on its way to its end. -/
structure Parting where
  presence : Presence
  link : Loopback
  reader : Reading
  losses : Nat → Option Loss
  /-- Every item that was pushed, first to last. -/
  pushed : List CallbackQueue.Item
  /-- Every item that was handed out, first to last. -/
  handed : List CallbackQueue.Item
  /-- What was done to the standing, first to last. -/
  history : List Event
  /-- Was the federate ending the session when it was struck? -/
  struck : Option Bool
  /-- The callbacks that the reader had still to take up when the notice was pushed. -/
  left : List CallbackQueue.Item

/-- The item that a packet is queued as. -/
def Packet.item? (p : Packet) : Option CallbackQueue.Item :=
  match p.message with
  | .callbackRequest e => some (.request p.header.sequenceNumber e)
  | _ => none

/-- The callback in some bytes, if they are the packet of one. -/
def Packet.request? (bs : Bytes) : Option CallbackQueue.Item :=
  match decode bs with
  | .ok p => p.item?
  | .error _ => none

namespace Parting

/-- A session that has begun to read, when the standing has some past. -/
def fresh (limits : Session.Limits) (now : Duration) (past : List Event) : Parting where
  presence := ⟨.fresh limits now, Event.stand past⟩
  link := { Loopback.fresh with stage := .reading }
  reader := .idle
  losses _ := none
  pushed := []
  handed := []
  history := past
  struck := none
  left := []

def session (t : Parting) : Session := t.presence.session

/-- The callbacks that the reader has still to take up. -/
def waiting (t : Parting) : List CallbackQueue.Item := t.link.unread.filterMap Packet.request?

/-- The reader has come to its end. -/
def Over (t : Parting) : Prop := t.reader = .idle ∧ t.link.stage = .ended

def setLoss (t : Parting) (j : Nat) (l : Loss) : Parting :=
  { t with losses := update t.losses j (some l) }

/-- What the observer notes about the next step of a loss. -/
def noteLoss (t : Parting) (l : Loss) : Parting :=
  match l.stage with
  | .striking => if t.session.lost then t else { t with struck := some t.session.closing }
  | .falling => { t with history := t.history ++ [.resets] }
  | .telling => { t with pushed := t.pushed ++ [.lost l.reason], left := t.waiting }
  | _ => t

/-- The link after the next step of a loss. -/
def linkAfter (t : Parting) (l : Loss) : Loopback :=
  match l.stage with
  | .shutting => t.link.close
  | _ => t.link

/-- What of a session nothing but its reader, its losses, the queue's users and the federate that
ends it touches. -/
structure Keeps (p q : Presence) : Prop where
  items : q.session.queue.items = p.session.queue.items
  lost : q.session.lost = p.session.lost
  closing : q.session.closing = p.session.closing

/-- A step of a session on its way to its end, which is the session of a number. -/
inductive Step (i : Nat) (t : Parting) : Parting → Prop where
  -- The peer.
  | arrives {b : Bytes} {link : Loopback} (sent : t.link.peerSend b = .ok link) :
    Step i t { t with link }
  | cut (reason : String) : Step i t { t with link := t.link.sever reason }
  -- The reader.
  | skips {b : Bytes} {link : Loopback} {flaw : Packet.Flaw} (idle : t.reader = .idle)
    (next : t.link.read = (some (.packet b), link)) (decodes : Packet.decode b = .error flaw) :
    Step i t { t with link }
  | reads {b : Bytes} {link : Loopback} {packet : Packet} (now : Duration)
    (idle : t.reader = .idle) (next : t.link.read = (some (.packet b), link))
    (decodes : Packet.decode b = .ok packet)
    (other : ∀ n outcome, packet.message ≠ .callResponse n outcome)
    (goesOn : (t.presence.receive packet now).1.loss = none) :
    Step i t { t with
      presence := (t.presence.receive packet now).2
      link
      pushed := t.pushed ++ packet.item?.toList }
  | isTold {j : Nat} {b : Bytes} {link : Loopback} {packet : Packet} {reason : String}
    (now : Duration) (idle : t.reader = .idle) (next : t.link.read = (some (.packet b), link))
    (decodes : Packet.decode b = .ok packet)
    (ends : (t.presence.receive packet now).1.loss = some reason) (new : t.losses j = none) :
    Step i t ({ t with
      presence := (t.presence.receive packet now).2
      link
      reader := .losing j }.setLoss j (.fresh reason))
  | isCut {j : Nat} {link : Loopback} {reason : String} (idle : t.reader = .idle)
    (next : t.link.read = (some (.lost reason), link)) (new : t.losses j = none) :
    Step i t ({ t with link, reader := .losing j }.setLoss j (.fresh reason))
  | ends {link : Loopback} (idle : t.reader = .idle) (next : t.link.read = (none, link)) :
    Step i t { t with link }
  | hears {b : Bytes} {link : Loopback} {header : Packet.Header} {n : UInt32}
    {outcome : CallOutcome} (now : Duration) (idle : t.reader = .idle)
    (next : t.link.read = (some (.packet b), link))
    (decodes : Packet.decode b = .ok ⟨header, .callResponse n outcome⟩) :
    Step i t { t with
      presence := t.presence.onSession (·.stamp header.sequenceNumber now)
      link
      reader := .answering (.fresh n outcome) }
  | answer {r : Receipt} (busy : t.reader = .answering r) :
    Step i t { t with
      presence := (r.step t.presence).2
      reader := .answering (r.step t.presence).1
      history := t.history ++ (r.event? i).toList }
  | answered {r : Receipt} (busy : t.reader = .answering r) (finished : r.stage = .ended) :
    Step i t { t with reader := .idle }
  | hasLost {j : Nat} {l : Loss} (busy : t.reader = .losing j) (known : t.losses j = some l)
    (finished : l.stage = .late ∨ l.stage = .ended) : Step i t { t with reader := .idle }
  -- Losses, on whatever threads.
  | beginLoss {j : Nat} (reason : String) (new : t.losses j = none) :
    Step i t (t.setLoss j (.fresh reason))
  | loss {j : Nat} {l : Loss} (known : t.losses j = some l)
    (joined : l.stage = .falling → t.reader = .losing j ∨ t.Over) :
    Step i t ({ t.noteLoss l with
      presence := (l.step t.presence).2
      link := t.linkAfter l }.setLoss j (l.step t.presence).1)
  -- The federate.
  | close : Step i t { t with presence := t.presence.onSession (·.close) }
  | take {item : CallbackQueue.Item} {q : CallbackQueue}
    (next : t.session.queue.next = (some item, q))
    (first : t.session.queue.items = item :: q.items) :
    Step i t { t with
      presence := t.presence.onSession (·.onQueue fun _ => q)
      handed := t.handed ++ [item] }
  | stop :
    Step i t { t with
      presence := t.presence.onSession (·.onQueue (·.stop))
      pushed := t.pushed ++ [.stop] }
  /-- An errand or a delivery moves the standing, or the federate connects or disconnects. -/
  | moves (x : Event) :
    Step i t { t with
      presence := { t.presence with standing := t.presence.standing.after x.move }
      history := t.history ++ [x] }
  /-- Anything else. -/
  | aside (p : Presence) (keeps : Keeps t.presence p)
    (standing : p.standing = t.presence.standing) : Step i t { t with presence := p }

/-- A session on its way to its end, at any time. -/
def Reachable (i : Nat) (t : Parting) : Prop :=
  ∃ limits now past, Relation.ReflTransGen (Step i) (fresh limits now past) t

end Parting

/-! ## What a step of a loss changes -/

/-- The link has been closed. -/
def Loss.Stage.shut : Loss.Stage → Bool
  | .falling | .telling | .ended => true
  | _ => false

/-- The loss has pushed the notice. -/
def Loss.told (l : Loss) : Bool :=
  match l.stage with
  | .ended => !l.closing
  | _ => false

namespace Parting

theorem Keeps.refl (p : Presence) : Keeps p p := ⟨rfl, rfl, rfl⟩

end Parting

/-- What one step of a loss changes. -/
inductive Loss.Goes (l : Loss) (p : Presence) : Loss → Presence → Prop where
  | stays (finished : l.stage = .late ∨ l.stage = .ended) : Goes l p l p
  | comesLate (stage : l.stage = .striking) (lost : p.session.lost = true) :
    Goes l p (l.goTo .late) p
  | strikes (stage : l.stage = .striking) (unlost : p.session.lost = false) :
    Goes l p (l.goTo .looking) (p.onSession (·.strike))
  | looks (stage : l.stage = .looking) :
    Goes l p { l.goTo .draining with closing := p.session.closing } p
  /-- It works on the calls and whoever else waits. -/
  | works {s : Loss.Stage} {q : Presence} (won : l.stage.won = true)
    (looked : l.stage ≠ .looking) (before : l.stage.shut = false)
    (won' : s.won = true) (after : s.shut = false) (keeps : Parting.Keeps p q)
    (standing : q.standing = p.standing) : Goes l p (l.goTo s) q
  | shuts (stage : l.stage = .shutting) :
    Goes l p (l.goTo (if l.closing then .ended else .falling)) (p.onSession (·.closeLink))
  | falls (stage : l.stage = .falling) : Goes l p (l.goTo .telling) { p with standing := .idle }
  | tells (stage : l.stage = .telling) :
    Goes l p (l.goTo .ended) (p.onSession (·.onQueue (·.push (.lost l.reason))))

/-- A caller that is woken does not touch the queue, and nobody is told that the session ends. -/
theorem Parting.keeps_wakePending (p : Presence) (entry : Session.Pending) (w : Session.Wakening) :
    Keeps p (p.onSession (·.wakePending entry w)) := by
  cases entry <;> exact ⟨rfl, rfl, rfl⟩

theorem Loss.goes (l : Loss) (p : Presence) : l.Goes p (l.step p).1 (l.step p).2 := by
  have works {s s' : Loss.Stage} {q : Presence} (hs : l.stage = s) (won : s.won = true)
      (looked : s ≠ .looking) (before : s.shut = false) (won' : s'.won = true)
      (after : s'.shut = false) (keeps : Parting.Keeps p q) (standing : q.standing = p.standing) :
      l.Goes p (l.goTo s') q := by
    subst hs
    exact .works won looked before won' after keeps standing
  cases hs : l.stage with
  | striking =>
    simp only [step, hs]
    split
    · next lost => exact .comesLate hs lost
    · next unlost => exact .strikes hs (by simpa using unlost)
  | late =>
    simp only [step, hs]
    exact .stays (.inl hs)
  | looking =>
    simp only [step, hs]
    exact .looks hs
  | waking rest =>
    cases rest with
    | nil =>
      simp only [step, hs]
      exact works hs rfl (by simp) rfl rfl rfl (.refl p) rfl
    | cons entry rest =>
      simp only [step, hs]
      exact works hs rfl (by simp) rfl rfl rfl (Parting.keeps_wakePending ..) rfl
  | draining | shaking | noting =>
    simp only [step, hs]
    exact works hs rfl (by simp) rfl rfl rfl ⟨rfl, rfl, rfl⟩ rfl
  | shutting =>
    simp only [step, hs]
    exact .shuts hs
  | falling =>
    simp only [step, hs]
    exact .falls hs
  | telling =>
    simp only [step, hs]
    exact .tells hs
  | ended =>
    simp only [step, hs]
    exact .stays (.inr hs)

/-- A step of a loss, beside others. -/
theorem Traffic.Losing.step {p : Presence} {losses : Nat → Option Loss} {j : Nat} {l : Loss}
    {effects : List (Nat × Effect)} (h : Losing p.session.lost losses effects)
    (known : losses j = some l) : ∃ effects',
      Losing (l.step p).2.session.lost (update losses j (some (l.step p).1)) effects' := by
  have goes {l' : Loss} {m : List Effect} (won : l.stage.won = true) (won' : l'.stage.won = true)
      (performed : l'.performed = l.performed ++ m)
      (unclosed : l'.stage = .falling ∨ l'.stage = .telling → l'.closing = false) :
      ∃ effects', Losing p.session.lost (update losses j (some l')) effects' :=
    ⟨_, h.goes known won won' performed unclosed⟩
  cases hs : l.stage with
  | striking =>
    have unwon : ∀ m, losses j = some m → m.stage.won = false := by
      intro m hm
      rw [known] at hm
      cases hm
      rw [hs]
      rfl
    cases hlost : p.session.lost with
    | true =>
      simp only [Loss.step, hs, hlost, if_true]
      rw [hlost] at h
      exact ⟨_, h.idle unwon rfl⟩
    | false =>
      simp only [Loss.step, hs, hlost, Bool.false_eq_true, if_false]
      rw [hlost] at h
      exact ⟨_, h.strikes⟩
  | late | ended =>
    simp only [Loss.step, hs]
    exact ⟨effects, by rwa [← known, Function.update_eq_self]⟩
  | looking =>
    simp only [Loss.step, hs]
    exact goes (m := []) (by rw [hs]; rfl) rfl (by simp [Loss.performed, Loss.goTo, hs])
      (by simp [Loss.goTo])
  | waking rest =>
    cases rest with
    | nil =>
      simp only [Loss.step, hs]
      exact goes (m := []) (by rw [hs]; rfl) rfl (by simp [Loss.performed, Loss.goTo, hs])
        (by simp [Loss.goTo])
    | cons entry rest =>
      simp only [Loss.step, hs]
      rw [(Parting.keeps_wakePending p entry l.wakening).lost]
      exact goes (m := []) (by rw [hs]; rfl) rfl (by simp [Loss.performed, Loss.goTo, hs])
        (by simp [Loss.goTo])
  | draining | shaking | noting =>
    simp only [Loss.step, hs]
    exact goes (by rw [hs]; rfl) rfl (by simp only [Loss.performed, Loss.goTo, hs]; rfl)
      (by simp [Loss.goTo])
  | shutting =>
    simp only [Loss.step, hs]
    cases hc : l.closing with
    | true =>
      exact goes (m := [.link]) (by rw [hs]; rfl) rfl (by simp [Loss.performed, Loss.goTo, hs, hc])
        (by simp [Loss.goTo])
    | false =>
      exact goes (m := [.link]) (by rw [hs]; rfl) rfl (by simp [Loss.performed, Loss.goTo, hs])
        fun _ => hc
  | falling =>
    simp only [Loss.step, hs]
    have closing := h.unclosed j l known (.inl hs)
    exact goes (m := [.standing]) (by rw [hs]; rfl) rfl (by simp [Loss.performed, Loss.goTo, hs])
      fun _ => closing
  | telling =>
    simp only [Loss.step, hs]
    have closing := h.unclosed j l known (.inr hs)
    exact goes (m := [.notice]) (by rw [hs]; rfl) rfl
      (by simp [Loss.performed, Loss.goTo, hs, closing])
      (by simp [Loss.goTo])

theorem Loss.reason_step (l : Loss) (p : Presence) : (l.step p).1.reason = l.reason := by
  have h := l.goes p
  generalize (l.step p).1 = m, (l.step p).2 = q at h
  cases h <;> rfl

theorem Loss.told_iff {l : Loss} : l.told = true ↔ l.stage = .ended ∧ l.closing = false := by
  unfold told
  split
  · next hs => simp [hs]
  · next hs => exact iff_of_false nofun fun h => hs h.1

theorem Loss.won_of_told {l : Loss} (h : l.told = true) : l.stage.won = true := by
  rw [(told_iff.mp h).1]
  rfl

theorem Loss.shut_of_told {l : Loss} (h : l.told = true) : l.stage.shut = true := by
  rw [(told_iff.mp h).1]
  rfl

/-- A loss that has pushed the notice stays as it is, and none comes to have done so but by pushing
it. -/
theorem Loss.step_of_told {l : Loss} {p : Presence} (silent : l.stage ≠ .telling) :
    (l.told = true → (l.step p).1 = l) ∧ ((l.step p).1.told = true → (l.step p).1 = l) := by
  have hg := l.goes p
  generalize (l.step p).1 = m, (l.step p).2 = q at hg
  cases hg with
  | stays => exact ⟨fun _ => rfl, fun _ => rfl⟩
  | comesLate stage | strikes stage | looks stage | falls stage =>
    refine ⟨fun h => ?_, nofun⟩
    rw [told, stage] at h
    cases h
  | works won _ before won' after =>
    refine ⟨fun h => ?_, fun h => ?_⟩
    · rw [shut_of_told h] at before
      cases before
    · exact absurd ((shut_of_told h).symm.trans after) nofun
  | shuts stage =>
    refine ⟨fun h => ?_, fun h => ?_⟩
    · rw [told, stage] at h
      cases h
    · cases hc : l.closing <;> simp [told, goTo, hc] at h
  | tells stage => exact absurd stage silent

theorem Parting.keeps_answer (r : Receipt) (p : Presence) : Keeps p (r.step p).2 := by
  cases hs : r.stage with
  | noting ticket tag =>
    simp only [Receipt.step, hs]
    cases r.outcome with
    | fault name details => exact .refl p
    | result payload =>
      simp only [Presence.noteOutcome, Presence.noteJoin]
      split
      · split <;> exact ⟨rfl, rfl, rfl⟩
      · exact .refl p
  | _ =>
    simp only [Receipt.step, hs]
    exact ⟨rfl, rfl, rfl⟩

/-- What a packet that is no answer does to the queue, and to what else matters here. -/
theorem Presence.receive_other {packet : Packet} (p : Presence) (now : Duration)
    (other : ∀ n outcome, packet.message ≠ .callResponse n outcome) :
    (p.receive packet now).2.session.queue.items =
        p.session.queue.items ++ packet.item?.toList ∧
      (p.receive packet now).2.session.lost = p.session.lost ∧
      (p.receive packet now).2.session.closing = p.session.closing ∧
      (p.receive packet now).2.standing = p.standing := by
  unfold receive Packet.item?
  cases hm : packet.message with
  | callResponse n outcome => exact absurd hm (other n outcome)
  | callbackRequest e => exact ⟨CallbackQueue.items_push .., rfl, rfl, rfl⟩
  | _ => exact ⟨(List.append_nil _).symm, rfl, rfl, rfl⟩

/-- The packet by which the coordinator ends the session. -/
theorem Presence.of_loss {packet : Packet} {p : Presence} {now : Duration} {reason : String}
    (h : (p.receive packet now).1.loss = some reason) :
    packet.message = .terminateSession ∧ reason = terminated := by
  unfold receive at h
  cases hm : packet.message with
  | terminateSession =>
    rw [hm] at h
    cases h
    exact ⟨rfl, rfl⟩
  | _ =>
    rw [hm] at h
    cases h

theorem Presence.other_of_loss {packet : Packet} {p : Presence} {now : Duration} {reason : String}
    (h : (p.receive packet now).1.loss = some reason) (n : UInt32) (outcome : CallOutcome) :
    packet.message ≠ .callResponse n outcome := by
  rw [(of_loss h).1]
  nofun

end Federate
