/-
Scenarios: rehearsals with a cooperative coordinator and a federate that
records what it gets.
-/
import Federate.Rehearsal
import Federate.Rehearsal.Host
import Federate.Rehearsal.Recorder
namespace Federate.Rehearsal.Scenario

/-- A step of a scenario. -/
inductive Step where
  | act (a : Act)
  | connect (model : CallbackModel) (localLine : Option String) (role : Recorder)
  | push (ms : List Message)
  | sever (reason : String)
  | plan (tag : UInt16) (p : Plan)
  /-- How new sessions are welcomed from now on. -/
  | welcome (s : SessionStatus)
  /-- A call that waits in the background. -/
  | begin (id : String) (r : Except Text.Json Request)
  /-- Answers all calls in the background. -/
  | release
  | unreadable (report : Text.Json)

/-- What a client does in a scenario. -/
abbrev Scene := Play Host Recorder Recorder.Note

/-- The line to the coordinator. -/
def line : Line (Rehearsal Host Recorder Recorder.Note) where
  connect _ := ofCoordinator fun h => (.ok (), h.connect)
  start w := (.ok (), w)
  send packet := ofCoordinator fun h =>
    let (arrivals, h) := h.take packet
    (.ok arrivals, h)
  spawn w := (.ok (), w)
  words := Settings.phrases
  phrase := Duration.phrase
  stamina := stamina
  patience := patience

/-- What arrives over the link reaches the latest session until it closes the link. -/
def arrive (a : Arrival) : Scene Unit := do
  if let some (i, s) ← latest? then
    unless s.linkClosed do Client.hear line i stamina [a]

/-- The handlers of recorders. -/
def handler : Handler (Rehearsal Host Recorder Recorder.Note) := fun session thread c => do
  match (← world).roles.lookup session, Recorder.details? c with
  | some role, some details =>
    let name := c.kind.name
    alterWorld fun w => { w with delivered := ⟨session, name, details, thread⟩ :: w.delivered }
    return role.handling name
  | _, _ => return .returned

def company : Company Host Recorder Recorder.Note := ⟨line, handler⟩

/-- Says something, and tells under which number. -/
def push (m : Message) : Scene UInt32 := do
  let (number, a) ← onCoordinator (·.say m)
  arrive a
  company.settle
  return number

/-- The number of a call that nobody makes. -/
def barrierCall : UInt32 := 4294967295

/-- Is there a session that has not been lost? -/
def inSession : Scene Bool := do return (← Client.ambassador).current?.any (!·.lost)

/-- Goes through a step. What is pushed ends with an answer to a call that nobody makes, unless
the session ends before. -/
def step : Step → Scene Result
  | .act a => company.play .application a
  | .connect model localLine role => do
    let session := (← Client.ambassador).sessions.length
    cast role
    match ← (Client.connect line handler .application model localLine none).run with
    | .error e => return .reply (.error e)
    | .ok () =>
      alterWorld fun w => { w with delivered := w.delivered.filter (·.session == session) }
      return .nothing
  | .push ms => do
    let numbers ← ms.mapM push
    if ← inSession then discard (push (.callResponse barrierCall (.result [])))
    return .numbers numbers
  | .sever reason => do
    arrive (.lost reason)
    return .nothing
  | .plan tag p => do
    alterCoordinator (·.schedule tag p)
    return .nothing
  | .welcome s => do
    alterCoordinator fun h => { h with status := s }
    return .nothing
  | .begin id r => do
    company.begin id r
    return .nothing
  | .release => do
    let (count, arrivals) ← onCoordinator (·.releaseAll)
    arrivals.forM arrive
    return .count count
  | .unreadable report => return .unreadable report

/-- What is reported of a step. -/
structure Report where
  result : Result
  standing : Standing
  counts : List UInt64
  session : Option UInt64
  /-- The session that the coordinator gave out last. -/
  coordinatorSession : UInt64
  connections : Nat
  /-- Calls in the background that ended. -/
  finished : List (String × Result)
  /-- All that the federate of this connection has written down. -/
  notes : List Recorder.Note
  /-- All outcomes of callbacks that the coordinator was told. -/
  outcomes : List (UInt32 × CallbackOutcome)

/-- Goes through a step and reports. -/
def perform (s : Step) : Scene Report := do
  alterWorld fun w => { w with finished := [] }
  let result ← step s
  company.settle
  let a ← Client.ambassador
  let w ← world
  return {
    result
    standing := a.standing
    counts := a.tally.counts
    session := a.current?.map (·.id)
    coordinatorSession := w.coordinator.session
    connections := w.coordinator.connections
    finished := w.finished
    notes := w.delivered.reverse
    outcomes := w.coordinator.outcomes }

/-- Goes through a scenario; reports each step, and the coordinator as it is in the end. -/
def run (settings : Settings) (family : TimeFamily) (steps : List Step) : List Report × Host :=
  let play : Scene (List Report × Host) := do
    let reports ← steps.mapM perform
    return (reports, (← world).coordinator)
  Rehearsal.run play settings (.fresh family)

end Federate.Rehearsal.Scenario
