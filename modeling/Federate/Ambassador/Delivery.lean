/-
Deliveries, step by step. A delivery takes the next item out of the queue of
its session, decodes it, moves the standing on, and gives its thread to the
handler; then it counts how the handler ended, answers a request, and lets the
queue hand out the next item. A request that cannot be decoded is answered
without any of this. Between two steps other threads may have theirs.
-/
import Federate.Ambassador
namespace Federate

/-- What became of a handler. -/
inductive Handling where
  | returned
  | failed (e : Fault)
  /-- The handler broke off, leaving a text or none. -/
  | panicked (text : Option String)

/-- The fault that a handler amounts to. -/
def Handling.fault? : Handling → Option Fault
  | .returned => none
  | .failed e => some e
  | .panicked text => some (.known .federateInternalError (text.getD "handler panicked"))

/-- The outcome of a callback of which a fault came, or none. -/
def CallbackOutcome.ofFault? : Option Fault → CallbackOutcome
  | none => .succeeded
  | some e => .failed e.name e.details

/-- How far a delivery has come. A request has a number, under which it is answered; the notice
that the session is lost has none. -/
inductive Delivery.Stage where
  /-- Before the queue is asked. -/
  | taking
  /-- The item is out, and nobody has looked at it. -/
  | taken (item : CallbackQueue.Item)
  /-- Before the standing moves on. -/
  | observing (number : Option UInt32) (c : Callback)
  | entering (number : Option UInt32) (c : Callback)
  /-- The handler has the thread. -/
  | handling (number : Option UInt32) (c : Callback)
  /-- The handler has ended, and the thread still counts as its own. -/
  | leaving (number : Option UInt32) (h : Handling)
  | counting (number : Option UInt32) (fault : Option Fault)
  | answering (number : Option UInt32) (fault : Option Fault)
  /-- The answer is with the link, which has not spoken yet. -/
  | offered (packet : Bytes)
  | finishing
  /-- An item was delivered, or there was none to deliver. -/
  | ended (delivered : Bool)

/-- A delivery for a session, on a thread. -/
structure Delivery where
  session : Nat
  thread : Thread
  stage : Delivery.Stage

namespace Delivery

/-- A delivery that has not asked for an item. -/
def fresh (session : Nat) (thread : Thread) : Delivery := { session, thread, stage := .taking }

def goTo (d : Delivery) (stage : Stage) : Delivery := { d with stage }

/-- Where a delivery stands that has been handed an item. The dispatcher ends when it is told to
stop; whoever evokes passes over the marker as over a callback that nobody needs to hear of. -/
def receive (d : Delivery) (item : CallbackQueue.Item) : Stage :=
  if item.isStop && d.thread == .dispatcher then .ended false else .taken item

/-- What becomes of an item, with times in the family that is settled. -/
def examine (family : Option TimeFamily) : CallbackQueue.Item → Stage
  | .stop => .finishing
  | .lost reason => .observing none (.connectionLost reason)
  | .request number envelope =>
    match Callback.decode envelope family with
    | .ok c => .observing (some number) c
    | .error e => .counting (some number) (some e)

/-- Counts how a handler ended. -/
def tally : Option Fault → Tally → Tally
  | none => .countDispatched
  | some _ => .countFailed

/-- The next step of a delivery. It does not move while the handler or the link has the word, or
when it has ended. -/
def step (d : Delivery) (a : Ambassador) : Delivery × Ambassador :=
  match d.stage with
  | .taking =>
    match a.onSession d.session fun s => (s.queue.next.1, s.onQueue (·.next.2)) with
    | (none, a) => (d.goTo (.ended false), a)
    | (some item, a) => (d.goTo (d.receive item), a)
  | .taken item => (d.goTo (examine a.standing.family item), a)
  | .observing n c =>
    (d.goTo (.entering n c), { a with standing := a.standing.observe c.kind })
  | .entering n c => (d.goTo (.handling n c), { a with handling := some d.thread })
  | .handling _ _ => (d, a)
  | .leaving n h => (d.goTo (.counting n h.fault?), { a with handling := none })
  | .counting n fault =>
    (d.goTo (.answering n fault), a.alterSession d.session (·.count (tally fault)))
  | .answering none _ => (d.goTo .finishing, a)
  | .answering (some n) fault =>
    if (a.session d.session).lost then (d.goTo .finishing, a)
    else
      let (packet, a) := a.onSession d.session (·.offer (.callbackResponse n (.ofFault? fault)))
      (d.goTo (.offered packet), a)
  | .offered _ => (d, a)
  | .finishing => (d.goTo (.ended true), a.alterSession d.session (·.onQueue .done))
  | .ended _ => (d, a)

/-- The handler has ended. -/
def returned (d : Delivery) (h : Handling) : Delivery :=
  match d.stage with
  | .handling n _ => d.goTo (.leaving n h)
  | _ => d

/-- The link has spoken; an answer that it refuses is given up. -/
def heard (d : Delivery) : Delivery :=
  match d.stage with
  | .offered _ => d.goTo .finishing
  | _ => d

/-- Was an item delivered? -/
def delivered (d : Delivery) : Bool :=
  match d.stage with
  | .ended b => b
  | _ => false

end Delivery

end Federate
