/-
The coordinator of a rehearsal. It answers each packet before the sender goes
on, in the way that its script asks for, and numbers what it says from one on,
over all sessions.
-/
import Federate.Client
import Federate.Rehearsal.Script
namespace Federate.Rehearsal

/-- A coordinator that does as it is told. -/
structure Coordinator where
  session : UInt64
  nextNumber : UInt32
  /-- The time family that a join settles. -/
  family : TimeFamily
  /-- Responses to the next calls of an operation. -/
  script : List (UInt16 × Response)
  welcome : Welcome
  farewell : Response
  heartbeat : Response
  acknowledgement : Response
  connectFault : Option LinkFault
  startFault : Option LinkFault
  /-- The next call goes unanswered for now, under a name. -/
  holding : Option String
  /-- The calls that went unanswered, by name: the latest of each name. -/
  held : List (String × UInt32)
  /-- The packets that came since the last report, the latest first. -/
  sent : List Bytes
  /-- The endpoints that were asked for since the last report. -/
  endpoints : List Endpoint

namespace Coordinator

def fresh : Coordinator where
  session := Welcome.usual.session
  nextNumber := 1
  family := .discrete
  script := []
  welcome := .usual
  farewell := .usual
  heartbeat := .usual
  acknowledgement := .usual
  connectFault := none
  startFault := none
  holding := none
  held := []
  sent := []
  endpoints := []

/-- Says something. -/
def say (c : Coordinator) : Utterance → Arrival × Coordinator
  | .raw packet => (.packet packet, c)
  | .message m (some n) => (.packet (Packet.encode m n c.session 0), c)
  | .message m none =>
    (.packet (Packet.encode m c.nextNumber c.session 0), { c with nextNumber := c.nextNumber + 1 })

/-- Says one thing after another. -/
def sayAll (c : Coordinator) : List Utterance → List Arrival × Coordinator
  | [] => ([], c)
  | u :: us =>
    let (a, c) := c.say u
    let (as, c) := c.sayAll us
    (a :: as, c)

/-- Takes a packet and responds; `answer` says what the answer is, if there is to be one. -/
def respond (c : Coordinator) (packet : Bytes) (r : Response)
    (answer : Coordinator → List Arrival × Coordinator) :
    Except LinkFault (List Arrival) × Coordinator :=
  match r.refusal with
  | some e => (.error e, c)
  | none =>
    let c := { c with sent := packet :: c.sent }
    let (before, c) := c.sayAll r.before
    let (answer, c) :=
      match r.answer with
      | .silence => ([], c)
      | .cut reason => ([Arrival.lost reason], c)
      | .usual | .outcome _ => answer c
    let (after, c) := c.sayAll r.after
    (.ok (before ++ answer ++ after ++ (r.cut.map Arrival.lost).toList), c)

/-- Says messages, each under the next number. -/
def sayMessages (ms : List Message) (c : Coordinator) : List Arrival × Coordinator :=
  c.sayAll (ms.map (.message · none))

/-- The result of a call that is answered as coordinators do. -/
def usualResult (family : TimeFamily) (tag : UInt16) : Bytes :=
  if tag = Service.joinFederationExecution.code then
    (Handle.ofUInt32 1 : Handle .federate).write ++ Bytes.text family.name
  else []

/-- The response to a call: the next of its script, or the usual one. -/
def takeResponse (c : Coordinator) (tag : UInt16) : Response × Coordinator :=
  match c.script.find? (·.1 == tag) with
  | some (_, r) => (r, { c with script := c.script.eraseP (·.1 == tag) })
  | none => (.usual, c)

/-- Answers a new session, whose number counts from this answer on. -/
def welcomeSession (c : Coordinator) : List Arrival × Coordinator :=
  { c with session := c.welcome.session }.sayMessages [.newSessionStatus c.welcome.status]

/-- The outcome in the answer to a call. -/
def callOutcome (family : TimeFamily) (tag : UInt16) : Answer → CallOutcome
  | .outcome o => o
  | _ => .result (usualResult family tag)

/-- Leaves a call unanswered under a name, and forgets the one before of that name. -/
def hold (c : Coordinator) (id : String) (number : UInt32) : Coordinator :=
  { c with holding := none, held := c.held.filter (·.1 != id) ++ [(id, number)] }

/-- Takes a call, unless it is to go unanswered for now. -/
def takeCall (c : Coordinator) (packet : Bytes) (number : UInt32) (tag : UInt16) :
    Except LinkFault (List Arrival) × Coordinator :=
  match c.holding with
  | some id => (.ok [], { c.hold id number with sent := packet :: c.sent })
  | none =>
    let (r, c) := c.takeResponse tag
    c.respond packet r (sayMessages [.callResponse number (callOutcome c.family tag r.answer)])

/-- Takes a packet. -/
def take (c : Coordinator) (packet : Bytes) : Except LinkFault (List Arrival) × Coordinator :=
  match Packet.decode packet with
  | .error _ => (.ok [], c)
  | .ok { header, message } =>
    match message with
    | .newSession _ => c.respond packet c.welcome.response welcomeSession
    | .terminateSession => c.respond packet c.farewell (sayMessages [.sessionTerminated])
    | .heartbeat =>
      let sign := if c.heartbeat.sign then [.heartbeatResponse header.sequenceNumber] else []
      c.respond packet c.heartbeat (sayMessages sign)
    | .callRequest e => c.takeCall packet header.sequenceNumber e.tag
    | _ => c.respond packet c.acknowledgement (sayMessages [])

/-- Answers a call that was held back, if there is one of the name. -/
def release (c : Coordinator) (id : String) (o : CallOutcome) : Option Arrival × Coordinator :=
  match c.held.lookup id with
  | none => (none, c)
  | some n =>
    let (a, c) := c.say (.message (.callResponse n o) none)
    (some a, { c with held := c.held.filter (·.1 != id) })

/-- Changes a setting. -/
def set (c : Coordinator) : Setting → Coordinator
  | .family f => { c with family := f }
  | .welcome w => { c with welcome := w }
  | .farewell r => { c with farewell := r }
  | .heartbeat r => { c with heartbeat := r }
  | .acknowledgement r => { c with acknowledgement := r }
  | .connectFault e => { c with connectFault := e }
  | .startFault e => { c with startFault := e }

/-- One more response to the next calls of an operation. -/
def schedule (c : Coordinator) (tag : UInt16) (r : Response) : Coordinator :=
  { c with script := c.script ++ [(tag, r)] }

/-- Opens a link. -/
def connect (c : Coordinator) (e : Endpoint) : Except LinkFault Unit × Coordinator :=
  match c.connectFault with
  | some f => (.error f, c)
  | none => (.ok (), { c with endpoints := c.endpoints ++ [e] })

def start (c : Coordinator) : Except LinkFault Unit × Coordinator :=
  match c.startFault with
  | some f => (.error f, c)
  | none => (.ok (), c)

end Coordinator

end Federate.Rehearsal
