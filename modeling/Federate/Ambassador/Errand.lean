/-
Errands: requests on their way, step by step. An errand checks the request,
passes the gates of the standing, finds the session in use, makes its call,
confirms or retracts what the gates had marked, and reads the answer. Updates
may be sent without waiting; then there is nothing to confirm and no answer.
An errand that looks for the connection waits while its place is held. Between
two steps other threads may have theirs.
-/
import Federate.Ambassador
namespace Federate

/-- How far an errand has come. -/
inductive Errand.Stage where
  | checking
  /-- Before the gates; an unawaited errand does not wait for its answer. -/
  | accepting (awaited : Bool)
  | seeking (awaited : Bool)
  | calling (awaited : Bool) (session : Nat) (call : Call)
  /-- The call has ended, and the standing has not been told. -/
  | settling (result : Except Fault Bytes)
  | reading (payload : Bytes)
  /-- The answer to a join has been read, and the standing has not been told. -/
  | joining (family : TimeFamily) (reply : Reply)
  | ended (result : Except Fault Reply)

/-- A request on its way, from a thread. -/
structure Errand where
  thread : Thread
  request : Request
  stage : Errand.Stage

namespace Errand

/-- An errand that has not set out. -/
def fresh (thread : Thread) (request : Request) : Errand := { thread, request, stage := .checking }

def goTo (e : Errand) (stage : Stage) : Errand := { e with stage }

/-- The errand ends with a fault. -/
def fail (e : Errand) (f : Fault) : Errand := e.goTo (.ended (.error f))

def operation (e : Errand) : Operation := e.request.operation

/-- May the request be sent without waiting for its answer? -/
def isUpdate (e : Errand) : Bool :=
  match e.request with
  | .service s _ => s.isUpdate
  | .other _ _ _ => false

/-- The fault of a request that finds no session. -/
def unconnected : Fault := .known .notConnected "no session"

/-- What the errand does once its call has ended. -/
def afterCall (e : Errand) (awaited : Bool) (result : Except Fault Bytes) : Errand :=
  if awaited then e.goTo (.settling result)
  else
    match result with
    | .ok _ => e.goTo (.ended (.ok (.retraction none)))
    | .error f => e.fail f

/-- Makes out what the answer says. -/
def readAnswer (e : Errand) (settled : Option TimeFamily) (payload : Bytes) : Errand :=
  match e.request with
  | .other _ _ _ => e.goTo (.ended (.ok (.payload payload)))
  | .service s _ =>
    match s.answer with
    | .membership =>
      match Service.readMembership.whole payload with
      | .ok (h, family) => e.goTo (.joining family (.handle .federate h))
      | .error f => e.fail f
    | answer => e.goTo (.ended (answer.read settled payload))

/-- Is the answer waited for? Updates ask the connection. -/
def awaited? (e : Errand) (a : Ambassador) : Option Bool :=
  if e.isUpdate then a.asyncUpdates.map (!·) else some true

/-- The next step of an errand. It does not move while it waits for the connection, while its call
does not, or when it has ended. -/
def step (e : Errand) (a : Ambassador) : Errand × Ambassador :=
  match e.stage with
  | .checking =>
    match e.request.check a.standing.family with
    | .ok () =>
      match e.awaited? a with
      | some awaited => (e.goTo (.accepting awaited), a)
      | none => (e, a)
    | .error f => (e.fail f, a)
  | .accepting awaited =>
    match a.accept e.operation e.thread with
    | .ok a => (e.goTo (.seeking awaited), a)
    | .error f => (e.fail f, a)
  | .seeking awaited =>
    match a.look with
    | none => (e, a)
    | some none => (e.afterCall awaited (.error unconnected), a)
    | some (some c) =>
      if awaited then
        let (call, a) := a.onSession c.session (Call.blocking e.request.envelope)
        (e.goTo (.calling awaited c.session call), a)
      else (e.goTo (.calling awaited c.session (.detached e.request.envelope)), a)
  | .calling awaited i call =>
    match call.stage with
    | .ended result => (e.afterCall awaited result, a)
    | _ =>
      let (call, a) := a.onSession i call.step
      (e.goTo (.calling awaited i call), a)
  | .settling result =>
    match result with
    | .ok payload =>
      (e.goTo (.reading payload), { a with standing := a.standing.confirm e.operation })
    | .error f => (e.fail f, { a with standing := a.standing.retract e.operation })
  | .reading payload => (e.readAnswer a.standing.family payload, a)
  | .joining family reply =>
    (e.goTo (.ended (.ok reply)), { a with standing := a.standing.join family })
  | .ended _ => (e, a)

/-- The packet that the errand's call hands to the link of a session. -/
def offered? (e : Errand) : Option (Nat × Bytes) :=
  match e.stage with
  | .calling _ i { stage := .offered _ _ packet, .. } => some (i, packet)
  | _ => none

/-- A step of the errand's call. -/
def onCall (e : Errand) (f : Call → Session → Call × Session) (a : Ambassador) :
    Errand × Ambassador :=
  match e.stage with
  | .calling awaited i call =>
    let (call, a) := a.onSession i (f call)
    (e.goTo (.calling awaited i call), a)
  | _ => (e, a)

/-- Does the errand wait for the connection, or for an answer that has not come? -/
def waits (e : Errand) (a : Ambassador) : Bool :=
  match e.stage with
  | .checking => (e.request.check a.standing.family).isOk && (e.awaited? a).isNone
  | .seeking _ => a.held
  | .calling _ i { ticket := some ticket, stage := .waiting _, .. } =>
    !((a.session i).slot ticket).ready
  | _ => false

/-- How the errand ended. -/
def result? (e : Errand) : Option (Except Fault Reply) :=
  match e.stage with
  | .ended result => some result
  | _ => none

end Errand

end Federate
