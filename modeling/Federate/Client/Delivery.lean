/-
Delivering callbacks. The federate evokes deliveries on its own thread, or the
dispatcher makes them as callbacks arrive; either way one delivery runs to its
end before the next begins, with the federate's handler between its steps. A
handler that looks for the connection while its place is held, by somebody who
waits for the handler to end, never gets to see it.
-/
import Federate.Ambassador.Delivery
import Federate.Ambassador.Hold
import Federate.Ambassador.Summons
import Federate.Client
namespace Federate

/-- What a federate does with the callbacks of a session, on the thread that delivers them. -/
abbrev Handler (ω : Type) := (session : Nat) → Thread → Callback → Client ω Handling

namespace Client

variable {ω : Type}

/-- Takes a delivery as far as it goes; it waits for nobody but the handler and the link. -/
def carry (line : Line ω) (handler : Handler ω) : (fuel : Nat) → Delivery → Client ω Delivery
  | 0, d => pure d
  | fuel + 1, d => do
    match d.stage with
    | .ended _ => return d
    | .handling _ c => carry line handler fuel (d.returned (← handler d.session d.thread c))
    | .offered packet =>
      discard (give line d.session packet)
      carry line handler fuel d.heard
    | _ => carry line handler fuel (← onAmbassador d.step)

/-- No delivery takes more steps than this. -/
def deliveryLength : Nat := 12

/-- Delivers the next callback, if one may be delivered now. -/
def deliverNext (line : Line ω) (handler : Handler ω) (i : Nat) (thread : Thread) :
    Client ω Bool := do
  return (← carry line handler deliveryLength (.fresh i thread)).delivered

/-- Delivers callbacks until none may be delivered. -/
def deliverAll (line : Line ω) (handler : Handler ω) (i : Nat) (thread : Thread) :
    (fuel : Nat) → Client ω Unit
  | 0 => pure ()
  | fuel + 1 => do
    if ← deliverNext line handler i thread then deliverAll line handler i thread fuel

/-- The dispatcher delivers what may be delivered, if callbacks are to reach the federate as they
arrive. -/
def dispatch (line : Line ω) (handler : Handler ω) : Client ω Unit := do
  match (← ambassador).connection with
  | some { session, model := .immediate, .. } =>
    deliverAll line handler session .dispatcher line.patience
  | _ => pure ()

/-- The dispatcher delivers what may be delivered and stops. -/
def stopDispatcher (line : Line ω) (handler : Handler ω) (c : Connection) : Client ω Unit := do
  alterSession c.session (·.onQueue .stop)
  if c.model = .immediate then deliverAll line handler c.session .dispatcher line.patience

/-! ## Evoking -/

/-- Evokes callbacks as `deliveries` says, and tells whether any still wait. Callbacks that reach
the federate as they arrive are not evoked. Nothing comes back from a wait for the connection. -/
def evokeWith (name : String) (thread : Thread) (deliveries : Nat → Client ω Unit) :
    Client ω (Option (Except Fault Bool)) := do
  let sought := (Summons.fresh name thread).step (← ambassador)
  match (sought.step (← ambassador)).stage with
  | .seeking | .checking _ => return none
  | .refused f => return some (.error f)
  | .idle => return some (.ok false)
  | .granted i =>
    deliveries i
    return some (.ok ((← ambassador).session i).queue.hasPending)

/-- Evokes one callback, if one waits. -/
def evoke (line : Line ω) (handler : Handler ω) (thread : Thread) :
    Client ω (Option (Except Fault Bool)) :=
  evokeWith "evokeCallback" thread fun i => discard (deliverNext line handler i thread)

/-- Evokes one callback, and then all that wait if there is `time` for more. -/
def evokeMultiple (line : Line ω) (handler : Handler ω) (thread : Thread) (time : Bool) :
    Client ω (Option (Except Fault Bool)) :=
  evokeWith "evokeMultipleCallbacks" thread fun i => do
    if ← deliverNext line handler i thread then
      if time then deliverAll line handler i thread line.patience

/-- Goes on with the session of the connection, if there is one. Nothing comes back from a wait for
the connection. -/
def withConnection (f : Nat → Client ω Unit) : Client ω (Option Unit) := do
  match (← ambassador).look with
  | none => return none
  | some none => return some ()
  | some (some c) =>
    f c.session
    return some ()

/-- Lets callbacks be delivered. -/
def enable : Client ω (Option Unit) :=
  withConnection fun i => alterSession i (·.onQueue (·.setEnabled true))

/-- Holds callbacks back. An item that is out is the thread's own, so the wait is never in vain. -/
def disable (thread : Thread) : Client ω (Option Unit) :=
  withConnection fun i => do
    let closed ← onAmbassador (Hold.fresh i thread).step
    let looked ← onAmbassador closed.step
    discard (onAmbassador looked.step)

end Client

end Federate
