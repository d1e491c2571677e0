/-
Documents of what travels: headers, messages, operations, requests and callbacks.
-/
import Federate.Callback
import Federate.Document.Value
import Federate.Packet
import Federate.Service.Request
namespace Federate.Document

open Text (Json)

def header (h : Packet.Header) : Json :=
  .ofMembers [("packet_size", number h.packetSize.toNat),
    ("sequence_number", number h.sequenceNumber.toNat),
    ("session_id", decimal h.session.toNat), ("last_received", number h.lastReceived.toNat),
    ("type", text h.kind.name), ("is_hla", truth h.kind.isService),
    ("body_len", .ofOption number h.bodyLength?)]

/-- The name and the details of a fault. -/
def faultPair (name details : String) : Json := .array [text name, text details]

private def envelopeMembers (e : Envelope) : List (String × Json) :=
  [("tag", number e.tag.toNat), ("payload", hex e.payload), ("encoded_len", number e.length)]

def envelope (e : Envelope) : Json := .array [number e.tag.toNat, hex e.payload]

def readEnvelope (v : Json) : Reading Envelope := do
  return ⟨UInt16.ofNat (← readNumber (v.member "tag")), ← readHex (v.member "payload")⟩

def message (m : Message) : Json :=
  let answered (n : UInt32) (name : String) (v : Json) :=
    [("response_to", number n.toNat), (name, v)]
  .ofMembers <| ("type", text m.kind.name) :: match m with
    | .newSession v => [("protocol_version", number v.toNat)]
    | .newSessionStatus s => [("status", number s.code.toNat), ("describe", text s.describe)]
    | .heartbeat | .terminateSession | .sessionTerminated => []
    | .heartbeatResponse n => [("response_to", number n.toNat)]
    | .callRequest e | .callbackRequest e => envelopeMembers e
    | .callResponse n (.result p) => answered n "result" (hex p)
    | .callResponse n (.fault name details) => answered n "fault" (faultPair name details)
    | .callbackResponse n .succeeded => answered n "fault" .null
    | .callbackResponse n (.failed name details) => answered n "fault" (faultPair name details)

def readStatus (v : Json) : Reading SessionStatus := do
  match SessionStatus.ofCode? (← readWord v) with
  | some s => return s
  | none => refuse "status"

/-- The outcome of a call: a fault if there is one, else the result. -/
def readCallOutcome (v : Json) : Reading CallOutcome := do
  match ← readOption (readPair readText readText) (v.member "fault") with
  | some (name, details) => return .fault name details
  | none => return .result (← readHex (v.member "result"))

def readMessage (v : Json) : Reading Message := do
  let responseTo := readWord (v.member "response_to")
  match ← readText (v.member "type") with
  | "NEW_SESSION" => return .newSession (← readWord (v.member "protocol_version"))
  | "NEW_SESSION_STATUS" => return .newSessionStatus (← readStatus (v.member "status"))
  | "HEARTBEAT" => return .heartbeat
  | "HEARTBEAT_RESPONSE" => return .heartbeatResponse (← responseTo)
  | "TERMINATE_SESSION" => return .terminateSession
  | "SESSION_TERMINATED" => return .sessionTerminated
  | "CALL_REQUEST" => return .callRequest (← readEnvelope v)
  | "CALLBACK_REQUEST" => return .callbackRequest (← readEnvelope v)
  | "CALL_RESPONSE" => return .callResponse (← responseTo) (← readCallOutcome v)
  | "CALLBACK_RESPONSE" =>
    match ← readOption (readPair readText readText) (v.member "fault") with
    | some (name, details) => return .callbackResponse (← responseTo) (.failed name details)
    | none => return .callbackResponse (← responseTo) .succeeded
  | _ => refuse "message"

/-- How far an operation outside the interface reaches: the federation, unless said. -/
def readScope (v : Json) : Reading Operation.Scope := do
  match ← readOption readText v with
  | none | some "federation" => return .federation
  | some "connection" => return .connection
  | some _ => refuse "scope"

def readOperation (v : Json) : Reading Operation := do
  match ← readOption readNumber (v.member "known") with
  | none =>
    return .other (UInt16.ofNat (← readNumber (v.member "other"))) (← readScope (v.member "scope"))
  | some n =>
    match Service.ofCode? (UInt16.ofNat n) with
    | some s => return .known s
    | none => refuse "operation"

/-- A request, under the name of its operation or as one outside the interface. -/
def readRequest (v : Json) : Reading Request := do
  let name ← readText (v.member "name")
  if name = "invoke" then
    return .other (UInt16.ofNat (← readNumber (v.member "operation")))
      (← readHex (v.member "payload")) (← readScope (v.member "scope"))
  else
    match Service.all.find? (·.name == name) with
    | some s => return .service s (← readRecord s.arguments v)
    | none => refuse "request"

def reply : Reply → Json
  | .done => .null
  | .handle _ h => handle h
  | .retraction h => .ofOption handle h
  | .time t => .ofOption time t
  | .interval i => interval i
  | .payload bs => hex bs

def callback (c : Callback) : Json :=
  .ofMembers (("cb", text c.kind.name) :: record c.kind.layout c.fields)

def readCallback (v : Json) : Reading Callback := do
  let name ← readText (v.member "cb")
  match Callback.Kind.all.find? (·.name == name) with
  | some kind => return { kind, fields := ← readRecord kind.layout v }
  | none => refuse "callback"

/-- A callback as its handler gets it: the handler's name and the arguments. -/
def delivery (c : Callback) : List Json :=
  [text c.kind.handler, .array ((record c.kind.layout c.fields).map Prod.snd)]

end Federate.Document
