/-
Clients: an ambassador that reaches coordinators over a line. A line may answer
a packet before it has taken the next, so what arrives within a sending is
taken in before the sender goes on. Whoever waits longer than the line has
anything to say waits in vain, and the wait is over.
-/
import Federate.Ambassador.Errand
namespace Federate

/-- What arrives over a link. -/
inductive Arrival where
  | packet (bs : Bytes)
  /-- The link is cut. -/
  | lost (reason : String)
  deriving DecidableEq, Repr

/-- A way to reach coordinators, and what else a client gets from outside: threads, and words for
durations. Every link that it opens replaces the one before. -/
structure Line (ω : Type) where
  /-- Opens a link to an endpoint. -/
  connect : Endpoint → ω → Except LinkFault Unit × ω
  /-- Begins to hand over what arrives. -/
  start : ω → Except LinkFault Unit × ω
  /-- Takes a packet, or refuses it, and tells what arrives meanwhile. -/
  send : Bytes → ω → Except LinkFault (List Arrival) × ω
  /-- Starts a thread, or tells why it cannot be started. -/
  spawn : ω → Except String Unit × ω
  /-- Reads durations in words. -/
  words : Settings.Words
  /-- Puts a duration in words. -/
  phrase : Duration → String
  /-- How deep answers to answers go. -/
  stamina : Nat
  /-- How many callbacks are delivered on end. -/
  patience : Nat

/-- What a client does, on a world that its line reaches. -/
abbrev Client (ω : Type) := StateM (Ambassador × ω)

namespace Client

variable {ω α : Type}

def ambassador : Client ω Ambassador := return (← get).1

/-- A step on the ambassador. -/
def onAmbassador (f : Ambassador → α × Ambassador) : Client ω α := fun (a, w) =>
  let (result, a) := f a
  pure (result, (a, w))

/-- A step on the world. -/
def onWorld (f : ω → α × ω) : Client ω α := fun (a, w) =>
  let (result, w) := f w
  pure (result, (a, w))

def alter (f : Ambassador → Ambassador) : Client ω Unit := onAmbassador fun a => ((), f a)

def alterSession (i : Nat) (f : Session → Session) : Client ω Unit := alter (·.alterSession i f)

def alterStanding (f : Standing → Standing) : Client ω Unit :=
  alter fun a => { a with standing := f a.standing }

/-- Loses a session. -/
def lose (i : Nat) (reason : String) : Client ω Unit :=
  onAmbassador (·.onPresence i fun p => ((), p.lose reason))

/-! ## Packets -/

/-- Hands a packet to the link of a session; a closed link takes none. -/
def put (line : Line ω) (i : Nat) (packet : Bytes) :
    Client ω (Except LinkFault (List Arrival)) := do
  if ((← ambassador).session i).linkClosed then return .error .closed
  match ← onWorld (line.send packet) with
  | .ok arrivals =>
    alterSession i (·.countPacket)
    return .ok arrivals
  | .error e => return .error e

/-- Takes in what arrives over the link of a session. A packet that cannot be decoded changes
nothing. A reply is sent before its own consequences follow, and `within` takes in what arrives
meanwhile. -/
def takeIn (line : Line ω) (i : Nat) (within : List Arrival → Client ω Unit) :
    Arrival → Client ω Unit
  | .lost reason => do
    unless ((← ambassador).session i).dropped do lose i reason
  | .packet bs => do
    unless ((← ambassador).session i).dropped do
      match Packet.decode bs with
      | .error _ => pure ()
      | .ok packet =>
        let reaction ← onAmbassador fun a => a.onPresence i (·.receive packet a.clock)
        if let some m := reaction.reply then
          let packet ← onAmbassador (·.onSession i (·.offer m))
          if let .ok arrivals ← put line i packet then within arrivals
        if let some reason := reaction.loss then lose i reason

/-- Takes in arrivals one after another, and answers to answers to some depth. -/
def hear (line : Line ω) (i : Nat) : (depth : Nat) → List Arrival → Client ω Unit
  | 0, _ => pure ()
  | depth + 1, arrivals => arrivals.forM (takeIn line i (hear line i depth))

/-- Hands a packet to the link, and takes in what arrives meanwhile. -/
def give (line : Line ω) (i : Nat) (packet : Bytes) : Client ω (Except LinkFault Unit) := do
  match ← put line i packet with
  | .ok arrivals =>
    hear line i line.stamina arrivals
    return .ok ()
  | .error e => return .error e

/-- Sends a message under the next number. -/
def transmit (line : Line ω) (i : Nat) (m : Message) : Client ω (Except LinkFault Unit) := do
  give line i (← onAmbassador (·.onSession i (·.offer m)))

/-- Sends a heartbeat, unless the coordinator has been silent for too long and the session is
lost. Tells whether more heartbeats follow. -/
def beat (line : Line ω) (i : Nat) : Client ω Bool := do
  let a ← ambassador
  match (a.session i).overdue? a.clock with
  | some silence =>
    lose i ("coordinator silent for " ++ line.phrase silence.wholeMilliseconds)
    return false
  | none =>
    match ← transmit line i .heartbeat with
    | .ok () => return !((← ambassador).session i).lost
    | .error _ => return false

/-! ## Calls -/

/-- Takes a call as far as it goes. -/
def follow (line : Line ω) (i : Nat) : (fuel : Nat) → Call → Client ω Call
  | 0, c => pure c
  | fuel + 1, c => do
    match c.stage with
    | .ended _ => return c
    | .offered _ _ packet =>
      let verdict ← give line i packet
      follow line i fuel (← onAmbassador (·.onSession i (c.heard verdict)))
    | _ => follow line i fuel (← onAmbassador (·.onSession i c.step))

/-- The wait of a call is over, unless its outcome has come: the call leaves the table, and the
session is lost. -/
def lapse (i : Nat) (c : Call) : Client ω Call := do
  let c ← onAmbassador (·.onSession i c.expire)
  match c.stage with
  | .lapsed n =>
    let c ← onAmbassador (·.onSession i c.step)
    lose i (Call.lapse n ((← ambassador).session i).limits)
    onAmbassador (·.onSession i c.step)
  | _ => return c

/-- No call takes more steps than this. -/
def callLength : Nat := 10

/-- Makes a call on a session and waits for its outcome. -/
def call (line : Line ω) (i : Nat) (envelope : Envelope) : Client ω (Except Fault Bytes) := do
  let c ← onAmbassador (·.onSession i (Call.blocking envelope))
  let c ← lapse i (← follow line i callLength c)
  match c.stage with
  | .ended result => return result
  | _ => return .error Session.absent

/-! ## Errands -/

/-- Takes an errand as far as it goes without a wait. -/
def advance (line : Line ω) : (fuel : Nat) → Errand → Client ω Errand
  | 0, e => pure e
  | fuel + 1, e => do
    match e.offered? with
    | some (i, packet) =>
      let verdict ← give line i packet
      advance line fuel (← onAmbassador (e.onCall (·.heard verdict)))
    | none =>
      if e.waits (← ambassador) then return e
      else advance line fuel (← onAmbassador e.step)

/-- No errand takes more steps than this. -/
def errandLength : Nat := 20

/-- Takes an errand on until it has ended or waits for its answer. -/
def resume (line : Line ω) (e : Errand) : Client ω Errand := advance line errandLength e

/-- Sets out on an errand. -/
def begin (line : Line ω) (thread : Thread) (request : Request) : Client ω Errand :=
  resume line (.fresh thread request)

/-- The wait of an errand's call is over, unless its outcome has come. -/
def expire (e : Errand) : Client ω Errand := do
  match e.stage with
  | .calling awaited i call => return e.goTo (.calling awaited i (← lapse i call))
  | _ => return e

/-- Takes a request as far as it goes, its wait included. -/
def pursue (line : Line ω) (thread : Thread) (request : Request) : Client ω Errand := do
  resume line (← expire (← begin line thread request))

/-- Asks for an operation and waits for the reply. -/
def perform (line : Line ω) (thread : Thread) (request : Request) :
    Client ω (Except Fault Reply) := do
  return (← pursue line thread request).result?.getD (.error Session.absent)

end Client

end Federate
