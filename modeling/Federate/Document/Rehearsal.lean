/-
Documents of rehearsals: scripts, and the reports of how they went. A request
or an act that cannot be made out does not stop the script; the report that
refuses it stands in its place.
-/
import Federate.Document.Client
import Federate.Document.Message
import Federate.Rehearsal.Vigil
namespace Federate.Document

open Text (Json)
open Rehearsal

/-! ## Scripts -/

def readUtterance (v : Json) : Reading Utterance := do
  let number ← readOption readWord (v.member "seq")
  match v.member "cb", v.member "env", v.member "msg" with
  | .null, .null, .null => return .raw (← readHex (v.member "raw"))
  | .null, .null, m => return .message (← readMessage m) number
  | .null, e, _ => do
    let (tag, payload) ← readPair readNumber readHex e
    return .message (.callbackRequest ⟨UInt16.ofNat tag, payload⟩) number
  | _, _, _ => return .message (.callbackRequest (← readCallback v).encode) number

def readUtterances (v : Json) : Reading (List Utterance) := do (← readItems v).mapM readUtterance

private def readAnswer (v : Json) : Reading Answer := do
  if let some reason := (v.member "sever").string? then return .cut reason
  if let .bool true := v.member "silent" then return .silence
  match v.member "result", v.member "fault" with
  | .null, .null => return .usual
  | _, _ => return .outcome (← readCallOutcome v)

/-- A response; the usual one where there is nothing. -/
def readResponse (v : Json) : Reading Response := do
  return {
    refusal := ← readOption readLinkFault (v.member "send_error")
    before := ← readUtterances (v.member "before")
    answer := ← readAnswer v
    sign := (← readOption readTruth (v.member "answer")).getD false
    after := ← readUtterances (v.member "after")
    cut := (v.member "then_sever").string? }

def readWelcome (v : Json) : Reading Welcome := do
  return {
    status := (← readOption readStatus (v.member "status")).getD Welcome.usual.status
    session := ((← readOption readNumber (v.member "session")).map UInt64.ofNat).getD
      Welcome.usual.session
    response := ← readResponse v }

def readSetting (v : Json) : Reading Setting := do
  let value := v.member "value"
  match ← readText (v.member "key") with
  | "factory" => return .family ((← readOption readFamily value).getD .discrete)
  | "handshake" => return .welcome (← readWelcome value)
  | "terminate" => return .farewell (← readResponse value)
  | "heartbeat" => return .heartbeat (← readResponse value)
  | "answers" => return .acknowledgement (← readResponse value)
  | "connect_error" => return .connectFault (← readOption readLinkFault value)
  | "start_error" => return .startFault (← readOption readLinkFault value)
  | _ => refuse "setting"

def readModel (v : Json) : Reading CallbackModel := do
  match ← readText v with
  | "evoked" => return .evoked
  | "immediate" => return .immediate
  | _ => refuse "callback model"

/-- Is there time for more than one callback? -/
def readTime? (v : Json) : Reading Bool := do
  let least ← readOption readNumber (v.member "min")
  let most ← readOption readNumber (v.member "max")
  return 0 < max (least.getD 0) (most.getD 0)

private def readKnownAct (v : Json) : Reading Act := do
  match ← readText (v.member "do") with
  | "call" => return .call (readRequest (v.member "call"))
  | "thread_call" => return .callElsewhere (readRequest (v.member "call"))
  | "connect" => return .connectAgain (← readModel (v.member "model"))
  | "disconnect" => return .disconnect
  | "flags" => return .flags
  | "enable" => return .enable
  | "disable" => return .disable
  | "evoke" => return .evoke
  | "evoke_multiple" => return .evokeMultiple (← readTime? v)
  | _ => refuse "act"

/-- A value, or what stands in its place when it cannot be made out. -/
def readOr {α : Type} (unreadable : Json → α) : Reading α → α
  | .ok a => a
  | .error e => unreadable e

def readAct (v : Json) : Act := readOr .unreadable (readKnownAct v)

private def readKnownCue (v : Json) : Reading Cue := do
  match ← readText (v.member "do") with
  | "push" => return .push (← readUtterances (v.member "msgs"))
  | "sever" => return .sever (← readText (v.member "reason"))
  | "script" =>
    return .script (UInt16.ofNat (← readNumber (v.member "tag")))
      (← readResponse (v.member "reply"))
  | "set" => return .set (← readSetting v)
  | "begin" => return .begin (← readText (v.member "id")) (readRequest (v.member "call"))
  | "release" => return .release (← readText (v.member "id")) (← readCallOutcome (v.member "reply"))
  | _ => return .act (readAct v)

def readCue (v : Json) : Cue := readOr (fun e => .act (.unreadable e)) (readKnownCue v)

/-- The members of an object; none where there is nothing. -/
def readMembers {α : Type} (read : Json → Reading α) (v : Json) : Reading (List (String × α)) :=
  match v, v.members? with
  | .null, _ => .ok []
  | _, some members => members.mapM fun (name, v) => do return (name, ← read v)
  | _, none => refuse "object"

def readBreak (v : Json) : Reading Break := do
  match ← readText v with
  | "static" => return .text "static text"
  | "other" => return .other
  | s => return .text s

def readFault (v : Json) : Reading Fault := do
  let (name, details) ← readPair readText readText v
  return .ofName name details

/-- The role of a federate; none where no federate is to take part. -/
def readRole (v : Json) : Reading (Option Role) := do
  if let .bool true := v.member "null_federate" then return none
  return some {
    hooks := ← readMembers (fun acts => do return (← readItems acts).map readCue) (v.member "hooks")
    breaks := ← readMembers readBreak (v.member "panic_on")
    failures := ← readMembers readFault (v.member "fail_on") }

private def readKnownStep (v : Json) : Reading Step := do
  match ← readText (v.member "do") with
  | "connect" =>
    return .connect (← readModel (v.member "model")) (v.member "local").string?
      (v.member "env_overrides").string? (← readRole v)
  | _ => return .cue (readCue v)

def readStep (v : Json) : Step := readOr (fun e => .cue (.act (.unreadable e))) (readKnownStep v)

/-! ## Reports -/

def result : Result → Json
  | .nothing => .null
  | .reply r => outcome reply r
  | .truth r => outcome truth r
  | .standing s => standing s
  | .count n => number n
  | .numbers ns => .array (ns.map fun n => number n.toNat)
  | .text s => text s
  | .unreadable report => report

def results (rs : List (String × Result)) : Json :=
  .ofMembers (rs.map fun (id, r) => (id, result r))

/-- A member that is there only if there is something in it. -/
def unlessEmpty {α : Type} (name : String) (as : List α) (v : Json) : List (String × Json) :=
  if as.isEmpty then [] else [(name, v)]

def deliveries (ds : List Performance.Delivery) : Json :=
  .array <| ds.map fun d => .array <| delivery d.callback ++
    (d.acts.map fun rs => Json.ofMembers [("hooks", .array (rs.map result))]).toList

/-- The report of a step. -/
def report (r : Performance.Report) : Json :=
  .ofMembers <| [("r", result r.result), ("flags", standing r.standing),
    ("stats", .array (r.counts.map fun n => number n.toNat)),
    ("session", .ofOption (fun s => decimal s.1.toNat) r.session),
    ("model", .ofOption (fun s => text s.2.name) r.session),
    ("sent", .array (r.sent.map hex)), ("delivered", deliveries r.delivered)] ++
    unlessEmpty "finished" r.finished (results r.finished) ++
    unlessEmpty "connects" r.endpoints (.array (r.endpoints.map fun e => text e.text))

/-- The report of the end. -/
def finalReport (r : Performance.Report) : Json :=
  .ofMembers [("finished", results r.finished), ("sent", .array (r.sent.map hex)),
    ("delivered", deliveries r.delivered)]

/-- A performance, from its script to its reports. -/
def performance (settings : Settings) (script : List Json) : Json :=
  let (reports, final) := Performance.run settings (script.map readStep)
  .ofMembers [("steps", .array (reports.map report)), ("end", finalReport final)]

/-! ## Vigils -/

def readVigil (v : Json) : Reading Vigil := do
  return {
    response := ← readResponse (v.member "heartbeat")
    beats := ← readNumber (v.member "beats")
    untilLost := ((← readOption readTruth (v.member "lost")).getD false)
    wait := .ofMilliseconds ((← readOption readNumber (v.member "then_wait")).getD 0) }

/-- The part of a text before the first ` for `. -/
private def beforeFor (s : String) : String := (s.splitOn " for ").headD s

/-- A callback of a vigil: its handler, and the text that comes first among the arguments, without
the duration that it may end with. -/
private def vigilDelivery (c : Callback) : Json :=
  let first := (record c.kind.layout c.fields).head?.bind (·.2.string?)
  .array [text c.kind.handler, text (beforeFor (first.getD ""))]

/-- How a vigil went. Attempts count only where the link refuses heartbeats. -/
def vigil (v : Vigil) (r : Vigil.Report) : Json :=
  .ofMembers [("frames", .array (r.heartbeats.map hex)),
    ("attempts", if v.response.refusal.isSome then number r.attempts else .null),
    ("connected", truth r.connected), ("call", outcome reply r.call),
    ("delivered", .array (r.delivered.map fun d => vigilDelivery d.callback))]

end Federate.Document
