/-
Performances: rehearsals that go through a script step by step. What came of
each step is reported with the client's standing, its counts, and what passed
to either side.
-/
import Federate.Rehearsal
import Federate.Rehearsal.Coordinator
namespace Federate.Rehearsal.Performance

/-- A callback that a handler got, and what came of the acts in it, if it had any. -/
structure Delivery where
  callback : Callback
  acts : Option (List Result)

/-- What a client does in a performance. -/
abbrev Scene := Play Coordinator (Option Role) Delivery

/-- The line to the coordinator. -/
def line : Line (Rehearsal Coordinator (Option Role) Delivery) where
  connect e := ofCoordinator (·.connect e)
  start := ofCoordinator (·.start)
  send packet := ofCoordinator (·.take packet)
  spawn w := (.ok (), w)
  words := Settings.phrases
  phrase := Duration.phrase
  stamina := stamina
  patience := patience

/-- What arrives over the link reaches the latest session. -/
def arrive (a : Arrival) : Scene Unit := do
  if let some (i, _) ← latest? then Client.hear line i stamina [a]

/-- Goes on with a cue, on a thread; `settle` follows whatever is pushed. -/
def play (co : Company Coordinator (Option Role) Delivery) (settle : Scene Unit) (thread : Thread) :
    Cue → Scene Result
  | .act a => co.play thread a
  | .push us => do
    us.forM fun u => do
      arrive (← onCoordinator (·.say u))
      settle
    return .nothing
  | .sever reason => do
    arrive (.lost reason)
    return .nothing
  | .script tag r => do
    alterCoordinator (·.schedule tag r)
    return .nothing
  | .set s => do
    alterCoordinator (·.set s)
    return .nothing
  | .begin id r => do
    alterCoordinator fun c => { c with holding := some id }
    co.begin id r
    alterCoordinator fun c => { c with holding := none }
    return .nothing
  | .release id o => do
    match ← onCoordinator (·.release id o) with
    | none => return .text "nothing held"
    | some a =>
      arrive a
      co.resume
      return .nothing

/-- Those who act within a handler. No callback is delivered while one runs, so they need no
handlers. -/
def understudies : Company Coordinator (Option Role) Delivery := ⟨line, fun _ _ _ => pure .returned⟩

/-- How a handler of a role ends. -/
def handling (role : Role) (name : String) : Handling :=
  match role.breaks.lookup name, role.failures.lookup name with
  | some (.text s), _ => .panicked (some s)
  | some .other, _ => .panicked none
  | none, some e => .failed e
  | none, none => .returned

/-- The handlers of the roles: the cues of the handler, and then its way to end. -/
def handler : Handler (Rehearsal Coordinator (Option Role) Delivery) := fun session thread c => do
  match ((← world).roles.lookup session).join with
  | none => return .returned
  | some role =>
    let name := c.kind.handler
    let acts ← (role.hooks.lookup name).mapM (·.mapM (play understudies (pure ()) thread))
    alterWorld fun w => { w with delivered := ⟨c, acts⟩ :: w.delivered }
    return handling role name

def company : Company Coordinator (Option Role) Delivery := ⟨line, handler⟩

/-- Goes through a step. -/
def step : Step → Scene Result
  | .cue c => play company company.settle .application c
  | .connect model localLine overrides role => do
    cast role
    return .ofAttempt (← (Client.connect line handler .application model localLine overrides).run)

/-- What is reported of a step. -/
structure Report where
  result : Result
  standing : Standing
  counts : List UInt64
  /-- The number and the callback model of the session in use. -/
  session : Option (UInt64 × CallbackModel)
  sent : List Bytes
  delivered : List Delivery
  finished : List (String × Result)
  endpoints : List Endpoint

/-- Begins a new report. -/
def clear : Scene Unit := do
  alterWorld fun w => { w with finished := [], delivered := [] }
  alterCoordinator fun c => { c with sent := [], endpoints := [] }

/-- Reports what happened since the last report. -/
def report (result : Result) : Scene Report := do
  let a ← Client.ambassador
  let w ← world
  return {
    result
    standing := a.standing
    counts := a.tally.counts ++ [a.packetsSent]
    session := a.connection.map fun c => ((a.session c.session).id, c.model)
    sent := w.coordinator.sent.reverse
    delivered := w.delivered.reverse
    finished := w.finished
    endpoints := w.coordinator.endpoints }

/-- Goes through a step and reports. -/
def perform (s : Step) : Scene Report := do
  clear
  let result ← step s
  company.settle
  report result

/-- Ends the calls in the background: their session is lost. Nothing else of it is reported. -/
def abandon : Scene (List (String × Result)) := do
  clear
  unless (← world).errands.isEmpty do
    arrive (.lost "input ended")
    company.settle
  return (← world).finished

/-- The end: calls in the background are given up, and then the federate lets go of its client. -/
def finish : Scene Report := do
  let finished ← abandon
  clear
  Client.shutDown line handler
  return { ← report .nothing with finished }

/-- Goes through a script; reports each step, and the end. -/
def run (settings : Settings) (steps : List Step) : List Report × Report :=
  let play : Scene (List Report × Report) := do
    let reports ← steps.mapM perform
    return (reports, ← finish)
  Rehearsal.run play settings .fresh

end Federate.Rehearsal.Performance
