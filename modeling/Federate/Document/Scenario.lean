/-
Documents of scenarios, from their steps to their reports.
-/
import Federate.Document.Rehearsal
import Federate.Rehearsal.Scenario
namespace Federate.Document

open Text (Json)
open Rehearsal

/-! ## Steps -/

/-- A message of the coordinator: a callback, an envelope or any other. -/
def readPushed (v : Json) : Reading Message := do
  match ← readUtterance v with
  | .message m _ => return m
  | .raw _ => refuse "message"

def readPlan (v : Json) : Reading Plan := do
  if let .bool true := v.member "hold" then return .hold
  match (v.member "sever").string? with
  | some reason => return .sever reason
  | none => return .outcome (← readCallOutcome v)

private def readKnownScenarioStep (v : Json) : Reading Scenario.Step := do
  match ← readText (v.member "do") with
  | "connect" =>
    return .connect (← readModel (v.member "model")) (v.member "local").string?
      ⟨(v.member "failing_on").string?, (v.member "panic_on").string?⟩
  | "push" => return .push (← (← readItems (v.member "msgs")).mapM readPushed)
  | "sever" => return .sever (← readText (v.member "reason"))
  | "script" =>
    return .plan (UInt16.ofNat (← readNumber (v.member "tag"))) (← readPlan (v.member "reply"))
  | "refuse" => return .welcome (← readStatus (v.member "status"))
  | "begin" => return .begin (← readText (v.member "id")) (readRequest (v.member "call"))
  | "release" => return .release
  | _ => return .act (readAct v)

def readScenarioStep (v : Json) : Scenario.Step := readOr .unreadable (readKnownScenarioStep v)

/-! ## Reports -/

def note (n : Recorder.Note) : Json :=
  .array [text n.callback, text n.details, truth (n.thread = .application)]

def callbackOutcome : CallbackOutcome → Json
  | .succeeded => .null
  | .failed name details => faultPair name details

/-- The report of a step. -/
def scenarioReport (r : Scenario.Report) : Json :=
  .ofMembers <| [("r", result r.result), ("flags", standing r.standing),
    ("stats", .array (r.counts.map fun n => number n.toNat)),
    ("session", .ofOption (fun s => decimal s.toNat) r.session),
    ("coordinator_session", decimal r.coordinatorSession.toNat),
    ("connections", number r.connections), ("delivered", .array (r.notes.map note)),
    ("responses", .array (r.outcomes.map fun o => .array [number o.1.toNat, callbackOutcome o.2]))]
    ++ unlessEmpty "finished" r.finished (results r.finished)

/-- A call that the coordinator got. -/
def recordedCall (c : UInt32 × Envelope) : Json :=
  .array [number c.1.toNat, number c.2.tag.toNat, hex c.2.payload,
    .ofOption (fun s => text s.name) (Service.ofCode? c.2.tag)]

/-- A scenario, from its steps to its reports. -/
def scenario (settings : Settings) (family : TimeFamily) (steps : List Json) : Json :=
  let (reports, host) := Scenario.run settings family (steps.map readScenarioStep)
  .ofMembers [("steps", .array (reports.map scenarioReport)),
    ("calls", .array (host.calls.map recordedCall)),
    ("connect_calls", number (host.calls.countP (·.2.tag == Service.connect.code))),
    ("federate", handle Host.federate)]

end Federate.Document
