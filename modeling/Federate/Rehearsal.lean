/-
Rehearsals: a client plays against a coordinator of some kind. The federate of
each session has a role, calls may wait in the background, and what handlers
get is kept. Between steps, callbacks that reach the federate as they arrive
are delivered, and calls in the background go on as far as they can.
-/
import Federate.Client.Connection
import Federate.Rehearsal.Script
namespace Federate

open Rehearsal

/-- The world of a rehearsal, with a coordinator, roles and deliveries of some kinds. -/
structure Rehearsal (κ ρ δ : Type) where
  coordinator : κ
  /-- The roles of the federates by session, the latest first. -/
  roles : List (Nat × ρ)
  /-- The calls in the background that have not ended. -/
  errands : List (String × Errand)
  /-- Those that have ended since the last report. -/
  finished : List (String × Result)
  /-- What handlers got, the latest first. -/
  delivered : List δ

namespace Rehearsal

variable {κ ρ δ α : Type}

/-- A world in which nothing has happened. -/
def fresh (coordinator : κ) : Rehearsal κ ρ δ := ⟨coordinator, [], [], [], []⟩

/-- What a client does in a rehearsal. -/
abbrev Play (κ ρ δ : Type) := Client (Rehearsal κ ρ δ)

/-- How deep answers to answers go in a rehearsal. -/
def stamina : Nat := 10000

/-- How many callbacks are delivered on end in a rehearsal: more than a script can ask for. -/
def patience : Nat := 1000000000000

def world : Play κ ρ δ (Rehearsal κ ρ δ) := return (← get).2

def alterWorld (f : Rehearsal κ ρ δ → Rehearsal κ ρ δ) : Play κ ρ δ Unit :=
  Client.onWorld fun w => ((), f w)

/-- A step of the coordinator. -/
def ofCoordinator (f : κ → α × κ) (w : Rehearsal κ ρ δ) : α × Rehearsal κ ρ δ :=
  let (result, coordinator) := f w.coordinator
  (result, { w with coordinator })

@[inherit_doc ofCoordinator] def onCoordinator (f : κ → α × κ) : Play κ ρ δ α :=
  Client.onWorld (ofCoordinator f)

def alterCoordinator (f : κ → κ) : Play κ ρ δ Unit := onCoordinator fun c => ((), f c)

/-- The role of the federate of the session that comes next. -/
def cast (role : ρ) : Play κ ρ δ Unit := do
  let session := (← Client.ambassador).sessions.length
  alterWorld fun w => { w with roles := (session, role) :: w.roles }

/-- The latest session, and its number. -/
def latest? : Play κ ρ δ (Option (Nat × Session)) := do
  let sessions := (← Client.ambassador).sessions
  return sessions.getLast?.map (sessions.length - 1, ·)

/-- Those who are in a rehearsal: the way to the coordinator, and the handlers of the roles. -/
structure Company (κ ρ δ : Type) where
  line : Line (Rehearsal κ ρ δ)
  handler : Handler (Rehearsal κ ρ δ)

/-- The federate acts, on a thread. -/
def Company.play (co : Company κ ρ δ) (thread : Thread) : Act → Play κ ρ δ Result
  | .call (.ok r) => return .reply (← Client.perform co.line thread r)
  | .callElsewhere (.ok r) => return .reply (← Client.perform co.line (.background 0) r)
  | .call (.error report) | .callElsewhere (.error report) | .unreadable report =>
    return .unreadable report
  | .connectAgain model =>
    return .ofAttempt (← (Client.connect co.line co.handler thread model none none).run)
  | .disconnect => return .ofAttempt (← (Client.disconnect co.line co.handler thread).run)
  | .flags => return .standing (← Client.ambassador).standing
  | .enable => do
    discard Client.enable
    return .nothing
  | .disable => do
    discard (Client.disable thread)
    return .nothing
  | .evoke => return .ofSummons (← Client.evoke co.line co.handler thread)
  | .evokeMultiple time =>
    return .ofSummons (← Client.evokeMultiple co.line co.handler thread time)

/-! ## In the background -/

/-- A call in the background has ended, or waits on. -/
def keep (id : String) (e : Errand) : Play κ ρ δ Unit :=
  alterWorld fun w =>
    match e.result? with
    | some r => { w with finished := w.finished ++ [(id, .reply r)] }
    | none => { w with errands := w.errands ++ [(id, e)] }

/-- Sets out on a call in the background. -/
def Company.begin (co : Company κ ρ δ) (id : String) : Except Text.Json Request → Play κ ρ δ Unit
  | .ok r => do keep id (← Client.begin co.line (.background 0) r)
  | .error report =>
    alterWorld fun w => { w with finished := w.finished ++ [(id, .unreadable report)] }

/-- Calls in the background go on as far as they can. -/
def Company.resume (co : Company κ ρ δ) : Play κ ρ δ Unit := do
  let errands := (← world).errands
  alterWorld fun w => { w with errands := [] }
  errands.forM fun (id, e) => do keep id (← Client.resume co.line e)

/-- What may be delivered is delivered, and what may go on goes on. -/
def Company.settle (co : Company κ ρ δ) : Play κ ρ δ Unit := do
  co.resume
  Client.dispatch co.line co.handler
  co.resume

/-- Plays from the beginning. -/
def run (play : Play κ ρ δ α) (settings : Settings) (coordinator : κ) : α :=
  (play (.fresh settings, fresh coordinator)).1

end Rehearsal

end Federate
