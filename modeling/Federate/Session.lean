/-
Sessions: what a client keeps about one connection. Each function is one step
that runs without interruption; a call, a loss or the handling of a packet is
made of such steps (`Session.Call`, `Session.Presence`). A packet carries the
next number of its session, which is used up even if the link refuses it.
-/
import Federate.Packet
import Federate.Session.Queue
import Federate.Session.Slot
import Federate.Session.Tally
import Federate.Settings
namespace Federate

/-- A call that has no answer yet. -/
inductive Session.Pending where
  /-- The answer goes to a slot. -/
  | blocking (ticket : Nat) (tag : UInt16)
  /-- Nobody waits for the answer. -/
  | detached (tag : UInt16)
  deriving DecidableEq, Repr

/-- How long a session waits, and how often it gives a sign of life. -/
structure Session.Limits where
  connect : Option Duration
  call : Option Duration
  /-- The time between heartbeats; none are sent when zero. -/
  heartbeat : Duration
  /-- A coordinator that is silent for longer is taken to be gone. -/
  liveness : Option Duration
  /-- The limit for calls in words. -/
  callWords : String
  deriving DecidableEq, Repr

/-- What a waiting caller is woken with. -/
abbrev Session.Wakening := Except Fault CallOutcome

/-- A session. -/
structure Session where
  /-- The number that the coordinator gave to the session; zero until then. -/
  id : UInt64
  limits : Session.Limits
  nextSequence : UInt32
  /-- The number of the last packet that came. -/
  lastReceived : UInt32
  /-- When it came, or when the session began. -/
  lastActivity : Duration
  /-- Calls without an answer, by the number of their packet. -/
  pending : List (UInt32 × Session.Pending)
  /-- The slots of the callers, by ticket. -/
  slots : List (Slot Session.Wakening)
  handshake : Slot (Except Fault UInt64)
  terminated : Slot Unit
  lost : Bool
  /-- The federate itself is ending the session. -/
  closing : Bool
  queue : CallbackQueue
  tally : Tally
  /-- How many packets the link has accepted. -/
  packetsSent : Nat
  linkClosed : Bool
  /-- The client has let go of the session, and nothing reaches it any more. -/
  dropped : Bool

namespace Session

/-- The limits that settings ask for, with a way to put durations in words. -/
def Limits.ofSettings (phrase : Duration → String) (s : Settings) : Limits where
  connect := if s.connectLimit.isZero then none else some s.connectLimit
  call := s.callLimit
  heartbeat := s.heartbeatInterval
  liveness := s.callLimit
  callWords := phrase s.responseTimeout

/-- A session before its handshake. -/
def fresh (limits : Limits) (now : Duration) : Session where
  id := 0
  limits := limits
  nextSequence := 1
  lastReceived := 0
  lastActivity := now
  pending := []
  slots := []
  handshake := .empty
  terminated := .empty
  lost := false
  closing := false
  queue := .fresh
  tally := .zero
  packetsSent := 0
  linkClosed := false
  dropped := false

/-- A session that is over and of which nobody knows. -/
def gone : Session :=
  { fresh ⟨none, none, .zero, none, ""⟩ .zero with
    lost := true, closing := true, linkClosed := true, dropped := true }

/-! ## Packets out -/

/-- The packet for a message, under the next number. -/
def offer (s : Session) (m : Message) : Bytes × Session :=
  (Packet.encode m s.nextSequence s.id s.lastReceived,
   { s with nextSequence := s.nextSequence + 1 })

/-- The link has accepted a packet. -/
def countPacket (s : Session) : Session := { s with packetsSent := s.packetsSent + 1 }

def closeLink (s : Session) : Session := { s with linkClosed := true }

def close (s : Session) : Session := { s with closing := true }

/-- The client lets go of the session. -/
def drop (s : Session) : Session := { s.close.closeLink with dropped := true }

/-! ## Calls -/

/-- A slot for a new caller. -/
def ticket (s : Session) : Nat × Session :=
  (s.slots.length, { s with slots := s.slots ++ [.empty] })

/-- The calls without an answer, and one more under a number. -/
def enter (s : Session) (number : UInt32) (p : Pending) : Session :=
  { s with pending := (number, p) :: s.pending.filter (·.1 != number) }

/-- No call waits under a number any more. -/
def withdraw (s : Session) (number : UInt32) : Session :=
  { s with pending := s.pending.filter (·.1 != number) }

/-- The call that waits under a number, which then waits no longer. -/
def claim (s : Session) (number : UInt32) : Option Pending × Session :=
  (s.pending.lookup number, s.withdraw number)

/-- All calls without an answer, which then wait no longer. -/
def drain (s : Session) : List Pending × Session :=
  (s.pending.map Prod.snd, { s with pending := [] })

/-- Puts an outcome into the slot of a caller. -/
def wake (s : Session) (ticket : Nat) (w : Wakening) : Session :=
  { s with slots := s.slots.modify ticket (·.complete w) }

/-- Puts an outcome into the slot of the caller, if one waits. -/
def wakePending (s : Session) (p : Pending) (w : Wakening) : Session :=
  match p with
  | .blocking ticket _ => s.wake ticket w
  | .detached _ => s

/-- The slot of a caller. -/
def slot (s : Session) (ticket : Nat) : Slot Wakening := s.slots[ticket]?.getD .taken

/-- Takes the outcome out of the slot of a caller. -/
def collect (s : Session) (ticket : Nat) : Option Wakening × Session :=
  ((s.slot ticket).take.1, { s with slots := s.slots.modify ticket (·.take.2) })

/-- Counts what happens over the session. -/
def count (s : Session) (f : Tally → Tally) : Session := { s with tally := f s.tally }

/-! ## Packets in, beginning and end -/

/-- Notes a packet that came. -/
def stamp (s : Session) (number : UInt32) (now : Duration) : Session :=
  { s with lastReceived := number, lastActivity := now }

/-- How long the coordinator has been silent, if that is too long. -/
def overdue? (s : Session) (now : Duration) : Option Duration :=
  let silence : Duration := ⟨now.nanoseconds - s.lastActivity.nanoseconds⟩
  match s.limits.liveness with
  | none => none
  | some limit => if limit.nanoseconds < silence.nanoseconds then some silence else none

def onQueue (s : Session) (f : CallbackQueue → CallbackQueue) : Session :=
  { s with queue := f s.queue }

/-- Settles the handshake, if nothing has. -/
def shake (s : Session) (outcome : Except Fault UInt64) : Session :=
  { s with handshake := s.handshake.complete outcome }

/-- The session has the number that the coordinator gave to it. -/
def establish (s : Session) (id : UInt64) : Session := { s with id := id }

def noteTerminated (s : Session) : Session := { s with terminated := s.terminated.complete () }

/-- Marks the session as lost. -/
def strike (s : Session) : Session := { s with lost := true }

/-- The fault of a call on a lost session. -/
def absent : Fault := .known .notConnected "session is gone"

end Session

end Federate
