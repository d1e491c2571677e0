/-
What packets carry: the messages of a session's life, and calls and callbacks
with their outcomes.
-/
import Federate.Packet.Header
import Federate.Reader
namespace Federate

/-- What a call or a callback asks for: a number for the operation, and its payload. -/
structure Envelope where
  tag : UInt16
  payload : Bytes
  deriving DecidableEq, Repr

namespace Envelope

def write (e : Envelope) : Bytes := Bytes.ofUInt16 e.tag ++ e.payload

def read : Reader Envelope := do
  let tag ← Reader.word16
  let payload ← Reader.rest
  pure { tag, payload }

/-- The number of bytes of an envelope. -/
def length (e : Envelope) : Nat := 2 + e.payload.length

end Envelope

/-- A coordinator's answer to the request for a session. -/
inductive SessionStatus where
  | ok
  | unsupportedProtocolVersion
  | outOfResources
  | badMessage
  | otherError
  deriving DecidableEq, Repr

namespace SessionStatus

/-- The number that stands for a status. -/
def code : SessionStatus → UInt32
  | .ok => 0
  | .unsupportedProtocolVersion => 1
  | .outOfResources => 2
  | .badMessage => 3
  | .otherError => 99

def describe : SessionStatus → String
  | .ok => "ok"
  | .unsupportedProtocolVersion => "unsupported protocol version"
  | .outOfResources => "server out of resources"
  | .badMessage => "bad message"
  | .otherError => "other error"

def all : List SessionStatus :=
  [.ok, .unsupportedProtocolVersion, .outOfResources, .badMessage, .otherError]

/-- The status that a number stands for. -/
def ofCode? (n : UInt32) : Option SessionStatus := all.find? (·.code == n)

theorem ofCode?_code (s : SessionStatus) : ofCode? s.code = some s := by cases s <;> rfl

theorem code_of_ofCode? {n : UInt32} {s : SessionStatus} (h : ofCode? n = some s) : s.code = n := by
  have := List.find?_some h
  simpa using this

end SessionStatus

/-- How a call ended. -/
inductive CallOutcome where
  | result (payload : Bytes)
  | fault (name details : String)
  deriving DecidableEq, Repr

/-- How a callback ended. -/
inductive CallbackOutcome where
  | succeeded
  | failed (name details : String)
  deriving DecidableEq, Repr

/-- A message. -/
inductive Message where
  | newSession (protocolVersion : UInt32)
  | newSessionStatus (status : SessionStatus)
  | heartbeat
  | heartbeatResponse (responseTo : UInt32)
  | terminateSession
  | sessionTerminated
  | callRequest (call : Envelope)
  | callResponse (responseTo : UInt32) (outcome : CallOutcome)
  | callbackRequest (callback : Envelope)
  | callbackResponse (responseTo : UInt32) (outcome : CallbackOutcome)
  deriving DecidableEq, Repr

namespace Message

/-- The version of the protocol that this client speaks. -/
def protocolVersion : UInt32 := 1

def kind : Message → MessageKind
  | .newSession _ => .newSession
  | .newSessionStatus _ => .newSessionStatus
  | .heartbeat => .heartbeat
  | .heartbeatResponse _ => .heartbeatResponse
  | .terminateSession => .terminateSession
  | .sessionTerminated => .sessionTerminated
  | .callRequest _ => .callRequest
  | .callResponse _ _ => .callResponse
  | .callbackRequest _ => .callbackRequest
  | .callbackResponse _ _ => .callbackResponse

/-- A fault in a body: a byte one, then the fault's name and details. -/
def faultBody (name details : String) : Bytes := 1 :: (Bytes.text name ++ Bytes.text details)

/-- The bytes after the header. -/
def body : Message → Bytes
  | .newSession v => Bytes.ofUInt32 v
  | .newSessionStatus s => Bytes.ofUInt32 s.code
  | .heartbeat | .terminateSession | .sessionTerminated => []
  | .heartbeatResponse n => Bytes.ofUInt32 n
  | .callRequest e | .callbackRequest e => e.write
  | .callResponse n (.result p) => Bytes.ofUInt32 n ++ 0 :: p
  | .callResponse n (.fault name details) => Bytes.ofUInt32 n ++ faultBody name details
  | .callbackResponse n .succeeded => Bytes.ofUInt32 n ++ [0]
  | .callbackResponse n (.failed name details) => Bytes.ofUInt32 n ++ faultBody name details

/-- The outcome of a call after the byte that says whether it succeeded. -/
def readCallOutcome : Reader CallOutcome := do
  let status ← Reader.byte
  if status = 0 then
    let payload ← Reader.rest
    pure (.result payload)
  else if status = 1 then
    let name ← Reader.text
    let details ← Reader.text
    pure (.fault name details)
  else Reader.fail (.couldNotDecode s!"call status {status}")

@[inherit_doc readCallOutcome] def readCallbackOutcome : Reader CallbackOutcome := do
  let status ← Reader.byte
  if status = 0 then pure .succeeded
  else if status = 1 then
    let name ← Reader.text
    let details ← Reader.text
    pure (.failed name details)
  else Reader.fail (.couldNotDecode s!"callback status {status}")

def readStatus : Reader SessionStatus := do
  let code ← Reader.word32
  match SessionStatus.ofCode? code with
  | some s => pure s
  | none => Reader.fail (.couldNotDecode s!"session status {code}")

/-- Reads the body of a message of a kind; `none` for the kinds that are not used. -/
def readBody? : MessageKind → Option (Reader Message)
  | .newSession => some do
    let v ← Reader.word32
    pure (.newSession v)
  | .newSessionStatus => some do
    let s ← readStatus
    pure (.newSessionStatus s)
  | .heartbeat => some (pure .heartbeat)
  | .heartbeatResponse => some do
    let n ← Reader.word32
    pure (.heartbeatResponse n)
  | .terminateSession => some (pure .terminateSession)
  | .sessionTerminated => some (pure .sessionTerminated)
  | .resumeRequest | .resumeStatus => none
  | .callRequest => some do
    let e ← Envelope.read
    pure (.callRequest e)
  | .callbackRequest => some do
    let e ← Envelope.read
    pure (.callbackRequest e)
  | .callResponse => some do
    let n ← Reader.word32
    let outcome ← readCallOutcome
    pure (.callResponse n outcome)
  | .callbackResponse => some do
    let n ← Reader.word32
    let outcome ← readCallbackOutcome
    pure (.callbackResponse n outcome)

end Message

end Federate
