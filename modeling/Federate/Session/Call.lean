/-
Calls, step by step. A call looks whether the session is lost, enters the table
of calls without an answer, looks again, hands its packet to the link, and
waits at its slot, if anybody waits. Between two steps others may have theirs.
A loss that comes after the first look either finds the call in the table or is
seen by the second look.
-/
import Federate.Session
namespace Federate

/-- How far a call has come. -/
inductive Call.Stage where
  /-- Before the first look. -/
  | arriving
  | entering
  /-- In the table under a number, before the second look. -/
  | entered (number : UInt32)
  | ready (number : UInt32)
  /-- The packet is with the link, which has not spoken yet. -/
  | offered (entered number : UInt32) (packet : Bytes)
  | accepted (number : UInt32)
  | waiting (number : UInt32)
  /-- The wait was over before anything came, and the call is still in the table. -/
  | lapsed (number : UInt32)
  /-- The call has left the table, and loses the session before it ends. -/
  | expired (number : UInt32)
  | ended (result : Except Fault Bytes)

/-- A call. -/
structure Call where
  envelope : Envelope
  /-- The slot of the caller; none when nobody waits. -/
  ticket : Option Nat
  stage : Call.Stage

namespace Call

/-- A call whose caller waits. -/
def blocking (envelope : Envelope) (s : Session) : Call × Session :=
  let (ticket, s) := s.ticket
  ({ envelope, ticket := some ticket, stage := .arriving }, s)

/-- A call that nobody waits for. -/
def detached (envelope : Envelope) : Call := { envelope, ticket := none, stage := .arriving }

/-- The entry of the call in the table. -/
def pending (c : Call) : Session.Pending :=
  match c.ticket with
  | some ticket => .blocking ticket c.envelope.tag
  | none => .detached c.envelope.tag

/-- The call at another stage. -/
def goTo (c : Call) (stage : Stage) : Call := { c with stage }

/-- What a caller makes of an outcome. -/
def result : Session.Wakening → Except Fault Bytes
  | .ok (.result payload) => .ok payload
  | .ok (.fault name details) => .error (.ofName name details)
  | .error e => .error e

/-- Why the session is lost when the wait for an answer is over. -/
def lapse (number : UInt32) (limits : Session.Limits) : String :=
  s!"no response to call {number} within " ++ limits.callWords

/-- The next step of a call. It does not move while the link has the word, while its slot is
empty, or when it has ended. -/
def step (c : Call) (s : Session) : Call × Session :=
  match c.stage with
  | .arriving =>
    if s.lost then (c.goTo (.ended (.error Session.absent)), s) else (c.goTo .entering, s)
  | .entering => (c.goTo (.entered s.nextSequence), s.enter s.nextSequence c.pending)
  | .entered n =>
    if s.lost then (c.goTo (.ended (.error Session.absent)), s.withdraw n)
    else (c.goTo (.ready n), s)
  | .ready n =>
    let (packet, s') := s.offer (.callRequest c.envelope)
    (c.goTo (.offered n s.nextSequence packet), s')
  | .offered _ _ _ => (c, s)
  | .accepted n =>
    match c.ticket with
    | some _ => (c.goTo (.waiting n), s.count .countCall)
    | none => (c.goTo (.ended (.ok [])), s.count .countCast)
  | .waiting _ =>
    match c.ticket with
    | none => (c, s)
    | some ticket =>
      match s.collect ticket with
      | (some w, s) => (c.goTo (.ended (result w)), s)
      | (none, s) => (c, s)
  | .lapsed n => (c.goTo (.expired n), s.withdraw n)
  | .expired n =>
    (c.goTo (.ended (.error (.known .rtiInternalError (lapse n s.limits)))), s)
  | .ended _ => (c, s)

/-- The link has spoken: the packet is on its way, or the call leaves the table. -/
def heard (c : Call) (verdict : Except LinkFault Unit) (s : Session) : Call × Session :=
  match c.stage, verdict with
  | .offered _ n _, .ok () => (c.goTo (.accepted n), s)
  | .offered n _ _, .error e => (c.goTo (.ended (.error e.fault)), s.withdraw n)
  | _, _ => (c, s)

/-- The wait is over, unless an outcome has come. -/
def expire (c : Call) (s : Session) : Call × Session :=
  match c.stage, c.ticket with
  | .waiting n, some ticket => if (s.slot ticket).ready then (c, s) else (c.goTo (.lapsed n), s)
  | _, _ => (c, s)

end Call

end Federate
