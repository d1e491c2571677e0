/-
A cooperative coordinator. It answers every call as a federation would that
raises no objection, unless a plan for the operation says otherwise, and keeps
a record of the calls and of the outcomes of its callbacks.
-/
import Federate.Client
namespace Federate.Rehearsal

/-- What a cooperative coordinator does about one call. -/
inductive Plan where
  | outcome (o : CallOutcome)
  /-- The call goes unanswered until it is released. -/
  | hold
  | sever (reason : String)

/-- What a handle was given out for. -/
inductive Host.Name where
  | object (call : UInt32)
  | lookup (tag : UInt16) (payload : Bytes)
  deriving DecidableEq

/-- A cooperative coordinator. -/
structure Host where
  session : UInt64
  nextNumber : UInt32
  lastReceived : UInt32
  /-- How new sessions are welcomed. -/
  status : SessionStatus
  family : TimeFamily
  plans : List (UInt16 × Plan)
  calls : List (UInt32 × Envelope)
  held : List (UInt32 × Envelope)
  outcomes : List (UInt32 × CallbackOutcome)
  /-- What handles were given out for, in their order. -/
  names : List Host.Name
  connections : Nat

namespace Host

def fresh (family : TimeFamily) : Host where
  session := 0x5e55
  nextNumber := 1
  lastReceived := 0
  status := .ok
  family := family
  plans := []
  calls := []
  held := []
  outcomes := []
  names := []
  connections := 0

/-- The handle of every federate. -/
def federate : Handle .federate := .ofUInt32 1

/-- Says something, and tells under which number. -/
def say (h : Host) (m : Message) : (UInt32 × Arrival) × Host :=
  ((h.nextNumber, .packet (Packet.encode m h.nextNumber h.session h.lastReceived)),
   { h with nextNumber := h.nextNumber + 1 })

/-- The handle that is given out for something: the same for the same, from 100 on. -/
def handleFor (h : Host) (n : Name) : Bytes × Host :=
  let names := if n ∈ h.names then h.names else h.names ++ [n]
  ((Handle.ofUInt32 (UInt32.ofNat (100 + names.idxOf n)) : Handle .objectInstance).write,
   { h with names })

/-- The result of a call that nothing speaks against. -/
def usualResult (h : Host) (number : UInt32) (e : Envelope) : Bytes × Host :=
  match Service.ofCode? e.tag with
  | some .joinFederationExecution => (federate.write ++ Bytes.text h.family.name, h)
  | some .registerObjectInstance => h.handleFor (.object number)
  | some .getObjectClassHandle | some .getInteractionClassHandle | some .getAttributeHandle
  | some .getParameterHandle => h.handleFor (.lookup e.tag e.payload)
  | some .queryLogicalTime => (h.family.initial.bytes, h)
  | some .queryGalt => (Bytes.flag false, h)
  | some .queryLookahead => (h.family.epsilon.bytes, h)
  | _ => ([], h)

/-- Answers a call as one that nothing speaks against. -/
def answerUsually (h : Host) (number : UInt32) (e : Envelope) : Arrival × Host :=
  let (payload, h) := h.usualResult number e
  let ((_, a), h) := h.say (.callResponse number (.result payload))
  (a, h)

/-- Answers a call by its plan. -/
def answer (h : Host) (number : UInt32) (e : Envelope) : List Arrival × Host :=
  match h.plans.find? (·.1 == e.tag) with
  | none =>
    let (a, h) := h.answerUsually number e
    ([a], h)
  | some (_, plan) =>
    let h := { h with plans := h.plans.eraseP (·.1 == e.tag) }
    match plan with
    | .hold => ([], { h with held := h.held ++ [(number, e)] })
    | .sever reason => ([.lost reason], h)
    | .outcome o =>
      let ((_, a), h) := h.say (.callResponse number o)
      ([a], h)

/-- Takes a packet. -/
def take (h : Host) (packet : Bytes) : List Arrival × Host :=
  match Packet.decode packet with
  | .error _ => ([], h)
  | .ok { header, message } =>
    let number := header.sequenceNumber
    let h := { h with lastReceived := number }
    let reply (m : Message) : List Arrival × Host :=
      let ((_, a), h) := h.say m
      ([a], h)
    match message with
    | .newSession _ => reply (.newSessionStatus h.status)
    | .heartbeat => reply (.heartbeatResponse number)
    | .terminateSession => reply .sessionTerminated
    | .callRequest e => { h with calls := h.calls ++ [(number, e)] }.answer number e
    | .callbackResponse n outcome => ([], { h with outcomes := h.outcomes ++ [(n, outcome)] })
    | _ => ([], h)

/-- Answers all calls that are held, and tells how many there were. -/
def releaseAll (h : Host) : (Nat × List Arrival) × Host :=
  let step := fun (acc : List Arrival × Host) (call : UInt32 × Envelope) =>
    let (a, h) := acc.2.answerUsually call.1 call.2
    (acc.1 ++ [a], h)
  let (arrivals, h') := h.held.foldl step ([], { h with held := [] })
  ((h.held.length, arrivals), h')

/-- One more plan for the next calls of an operation. -/
def schedule (h : Host) (tag : UInt16) (p : Plan) : Host :=
  { h with plans := h.plans ++ [(tag, p)] }

/-- Opens a link; each gets a session of its own. -/
def connect (h : Host) : Host :=
  { h with session := h.session + 1, connections := h.connections + 1 }

end Host

end Federate.Rehearsal
