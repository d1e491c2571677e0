/-
The traffic over one session: any number of calls, of answers that are taken in
and of losses, and the other senders of packets, each with its next step at any
time. A packet is made and handed to the link by one sender after another; a
call has its turn from the moment it enters the table. Beside the session, an
observer notes where the entry of each call is, what was handed to the link,
and what reached each slot; no step looks at these notes.
-/
import Mathlib.Logic.Relation
import Federate.Proofs.Rows
import Federate.Proofs.Session.Receipt
import Federate.Proofs.Session.Loss
import Federate.Session.Call
namespace Federate

open Function (update)

/-- What ends a caller's wait. -/
inductive Tiding where
  | response (number : UInt32) (outcome : CallOutcome)
  | loss (reason : String)
  /-- The wait was over before anything came. -/
  | expiry (number : UInt32)

namespace Tiding

/-- What the tiding puts into the slot of the caller. -/
def wakening? : Tiding → Option Session.Wakening
  | .response _ outcome => some (.ok outcome)
  | .loss reason => some (.error (.known .notConnected reason))
  | .expiry _ => none

/-- How a call ends on the tiding. -/
def result (limits : Session.Limits) : Tiding → Except Fault Bytes
  | .response _ (.result payload) => .ok payload
  | .response _ (.fault name details) => .error (.ofName name details)
  | .loss reason => .error (.known .notConnected reason)
  | .expiry number => .error (.known .rtiInternalError (Call.lapse number limits))

theorem result_of_wakening {τ : Tiding} {w : Session.Wakening} (limits : Session.Limits)
    (h : τ.wakening? = some w) : τ.result limits = Call.result w := by
  cases τ with
  | response number outcome => cases h; cases outcome <;> rfl
  | loss reason => cases h; rfl
  | expiry number => cases h

end Tiding

/-- A packet that was handed to the link, with its number, and whose call it carries. -/
structure Handing where
  caller : Option Nat
  number : UInt32
  packet : Bytes

/-- Where the entry of a call is. -/
inductive Place where
  | nowhere
  | table
  /-- An answer has taken it. -/
  | answer (j : Nat)
  /-- A loss has drained it. -/
  | loss (j : Nat)
  /-- The call has taken it back. -/
  | withdrawn
  deriving DecidableEq

/-- What a loss does to the session as a whole. -/
inductive Effect where
  | drain
  | handshake
  | terminated
  | link
  | standing
  | notice
  deriving DecidableEq

/-- The effect of a loss's next step. -/
def Loss.effect? (l : Loss) : Option Effect :=
  match l.stage with
  | .draining => some .drain
  | .shaking => some .handshake
  | .noting => some .terminated
  | .shutting => some .link
  | .falling => some .standing
  | .telling => some .notice
  | .striking | .late | .looking | .waking _ | .ended => none

/-- Does the call have its turn with the link? -/
def Call.Stage.holds : Call.Stage → Bool
  | .entered _ | .ready _ | .offered _ _ _ => true
  | _ => false

/-- The traffic over a session. -/
structure Traffic where
  presence : Presence
  calls : Nat → Option Call
  answers : Nat → Option Receipt
  losses : Nat → Option Loss
  /-- The packet of a sender other than a call, which the link has. -/
  outgoing : Option Bytes
  /-- The number under which a call entered the table. -/
  number : Nat → Option UInt32
  place : Nat → Place
  /-- Every packet that was handed to the link, accepted or not. -/
  handed : List Handing
  /-- The calls whose packet the link accepted. -/
  sent : List Nat
  received : List Packet
  /-- What reached each slot, first to last. -/
  tidings : Nat → List Tiding
  /-- What losses did to the session as a whole, and which of them. -/
  effects : List (Nat × Effect)

namespace Traffic

/-- A new session, before anything has happened over it. -/
def fresh (limits : Session.Limits) (now : Duration) (standing : Standing) : Traffic where
  presence := ⟨.fresh limits now, standing⟩
  calls _ := none
  answers _ := none
  losses _ := none
  outgoing := none
  number _ := none
  place _ := .nowhere
  handed := []
  sent := []
  received := []
  tidings _ := []
  effects := []

def session (t : Traffic) : Session := t.presence.session

def setSession (t : Traffic) (s : Session) : Traffic :=
  { t with presence := { t.presence with session := s } }

def setCall (t : Traffic) (i : Nat) (c : Call) : Traffic :=
  { t with calls := update t.calls i (some c) }

def setAnswer (t : Traffic) (j : Nat) (a : Receipt) : Traffic :=
  { t with answers := update t.answers j (some a) }

def setLoss (t : Traffic) (j : Nat) (l : Loss) : Traffic :=
  { t with losses := update t.losses j (some l) }

/-- Nobody has the turn. -/
def Free (t : Traffic) : Prop :=
  t.outgoing = none ∧ ∀ i c, t.calls i = some c → c.stage.holds = false

/-- The places of the entries, once those under a number are no longer in the table. -/
def moved (place : Nat → Place) (number : Nat → Option UInt32) (n : UInt32) (dest : Place) :
    Nat → Place := fun i => if place i = .table ∧ number i = some n then dest else place i

/-- The places of the entries, once the table is empty. -/
def emptied (place : Nat → Place) (dest : Place) : Nat → Place := fun i =>
  if place i = .table then dest else place i

def tell (t : Traffic) (ticket : Nat) (τ : Tiding) : Traffic :=
  { t with tidings := update t.tidings ticket (t.tidings ticket ++ [τ]) }

/-- The packet that a call hands to the link. -/
def packetOf (t : Traffic) (c : Call) : Bytes := (t.session.offer (.callRequest c.envelope)).1

/-- What the observer notes about the next step of a call. -/
def noteCall (t : Traffic) (i : Nat) (c : Call) : Traffic :=
  match c.stage with
  | .entering =>
    { t with
      number := update t.number i (some t.session.nextSequence)
      place := update (moved t.place t.number t.session.nextSequence .withdrawn) i .table }
  | .entered n =>
    if t.session.lost then { t with place := moved t.place t.number n .withdrawn } else t
  | .ready _ =>
    { t with handed := t.handed ++ [⟨some i, t.session.nextSequence, t.packetOf c⟩] }
  | .lapsed n => { t with place := moved t.place t.number n .withdrawn }
  | _ => t

/-- What the observer notes about a verdict of the link. -/
def noteVerdict (t : Traffic) (i : Nat) (c : Call) (verdict : Except LinkFault Unit) : Traffic :=
  match c.stage, verdict with
  | .offered _ _ _, .ok () => { t with sent := i :: t.sent }
  | .offered n _ _, .error _ => { t with place := moved t.place t.number n .withdrawn }
  | _, _ => t

/-- What the observer notes about the end of a wait. -/
def noteExpiry (t : Traffic) (c : Call) : Traffic :=
  match c.stage, c.ticket with
  | .waiting n, some ticket =>
    if (t.session.slot ticket).ready then t else t.tell ticket (.expiry n)
  | _, _ => t

/-- What the observer notes about the next step of an answer. -/
def noteAnswer (t : Traffic) (j : Nat) (a : Receipt) : Traffic :=
  match a.stage with
  | .claiming => { t with place := moved t.place t.number a.number (.answer j) }
  | .waking ticket => t.tell ticket (.response a.number a.outcome)
  | _ => t

/-- What the observer notes about the effect of a loss's step. -/
def noteEffect (t : Traffic) (j : Nat) : Option Effect → Traffic
  | none => t
  | some e => { t with effects := t.effects ++ [(j, e)] }

/-- What the observer notes about the next step of a loss. -/
def noteLoss (t : Traffic) (j : Nat) (l : Loss) : Traffic :=
  let t := t.noteEffect j l.effect?
  match l.stage with
  | .draining => { t with place := emptied t.place (.loss j) }
  | .waking (.blocking ticket _ :: _) => t.tell ticket (.loss l.reason)
  | _ => t

/-- What of a session nothing but calls, answers, losses and senders of packets touches. -/
structure Agrees (p q : Presence) : Prop where
  limits : q.session.limits = p.session.limits
  next : q.session.nextSequence = p.session.nextSequence
  pending : q.session.pending = p.session.pending
  slots : q.session.slots = p.session.slots
  lost : q.session.lost = p.session.lost

/-- A step of the traffic. -/
inductive Step (t : Traffic) : Traffic → Prop where
  | beginCall {i : Nat} (envelope : Envelope) (new : t.calls i = none) :
    Step t ((t.setSession (Call.blocking envelope t.session).2).setCall i
      (Call.blocking envelope t.session).1)
  | beginCast {i : Nat} (envelope : Envelope) (new : t.calls i = none) :
    Step t (t.setCall i (.detached envelope))
  | call {i : Nat} {c : Call} (known : t.calls i = some c) (turn : c.stage = .entering → t.Free) :
    Step t (((t.noteCall i c).setSession (c.step t.session).2).setCall i (c.step t.session).1)
  | verdict {i : Nat} {c : Call} (known : t.calls i = some c) (verdict : Except LinkFault Unit) :
    Step t (((t.noteVerdict i c verdict).setSession (c.heard verdict t.session).2).setCall i
      (c.heard verdict t.session).1)
  | expire {i : Nat} {c : Call} (known : t.calls i = some c)
    (limited : t.session.limits.call ≠ none) :
    Step t (((t.noteExpiry c).setSession (c.expire t.session).2).setCall i
      (c.expire t.session).1)
  /-- A heartbeat, an answer to one or to a callback, or the beginning or end of the session. -/
  | send (m : Message) (turn : t.Free) :
    Step t { t.setSession (t.session.offer m).2 with
      outgoing := some (t.session.offer m).1
      handed := t.handed ++ [⟨none, t.session.nextSequence, (t.session.offer m).1⟩] }
  /-- The link has spoken about such a packet. -/
  | sent : Step t { t with outgoing := none }
  /-- The answer to a call has come. -/
  | response {j : Nat} (header : Packet.Header) (n : UInt32) (outcome : CallOutcome)
    (now : Duration) (new : t.answers j = none) :
    Step t ({ t.setSession (t.session.stamp header.sequenceNumber now) with
      received := t.received ++ [Packet.mk header (.callResponse n outcome)] }.setAnswer j
        (.fresh n outcome))
  | answer {j : Nat} {a : Receipt} (known : t.answers j = some a) :
    Step t ({ t.noteAnswer j a with presence := (a.step t.presence).2 }.setAnswer j
      (a.step t.presence).1)
  /-- Another packet has come. -/
  | packet (packet : Packet) (now : Duration)
    (other : ∀ n outcome, packet.message ≠ .callResponse n outcome) :
    Step t { t with
      presence := (t.presence.receive packet now).2
      received := t.received ++ [packet] }
  | beginLoss {j : Nat} (reason : String) (new : t.losses j = none) :
    Step t (t.setLoss j (.fresh reason))
  | loss {j : Nat} {l : Loss} (known : t.losses j = some l) :
    Step t ({ t.noteLoss j l with presence := (l.step t.presence).2 }.setLoss j
      (l.step t.presence).1)
  /-- Anything else: the client ends or lets go of the session, a packet is counted, a callback is
  delivered, the standing changes. -/
  | aside (p : Presence) (agrees : Agrees t.presence p) : Step t { t with presence := p }

/-- The traffic that some steps make of another. -/
abbrev Steps : Traffic → Traffic → Prop := Relation.ReflTransGen Step

/-- The traffic over a session that has begun. -/
def Reachable (t : Traffic) : Prop :=
  ∃ limits now standing, Steps (fresh limits now standing) t

end Traffic

end Federate
