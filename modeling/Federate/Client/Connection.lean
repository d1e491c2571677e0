/-
Connecting and disconnecting. Connecting opens a link, settles the handshake,
starts the heartbeats, asks for the connection and starts the dispatcher; if any
of it fails, no connection is left and the link is closed. Disconnecting always
ends with no connection, the standing of a federate that never connected, and a
lost session.
-/
import Federate.Client.Delivery
namespace Federate.Client

variable {ω α : Type}

/-- What a client does up to its first fault. -/
abbrev Attempt (ω : Type) := ExceptT Fault (Client ω)

/-- A step that cannot fail. -/
def sure (x : Client ω α) : Attempt ω α := ExceptT.lift x

/-- A step that ends in a value or a fault. -/
def attempt (x : Client ω (Except Fault α)) : Attempt ω α := ExceptT.mk x

/-- Passes the gates of an operation. -/
def pass (op : Operation) (inCallback : Bool) : Client ω (Except Fault Unit) := do
  match (← ambassador).standing.accept op inCallback with
  | .error e => return .error e
  | .ok standing =>
    alterStanding fun _ => standing
    return .ok ()

/-- Passes the gates, and again outside any handler once the connection is the thread's to
change. -/
def passTwice (service : Service) (thread : Thread) : Attempt ω Unit := do
  let a ← sure ambassador
  attempt (pass (.known service) (a.inCallback thread))
  attempt (pass (.known service) false)

/-- Ends a session in order: says so, waits for the answer, and loses it. -/
def terminate (line : Line ω) (i : Nat) : Client ω Unit := do
  alterSession i (·.close)
  unless ((← ambassador).session i).lost do
    discard (transmit line i .terminateSession)
  lose i "session terminated by the federate"

/-- Lets go of a session. -/
def release (i : Nat) : Client ω Unit := alterSession i (·.drop)

/-- The fault of a thread that cannot be started. -/
def threadFault (name reason : String) : Fault :=
  .known .rtiInternalError (name ++ " thread: " ++ reason)

/-- Starts a thread. -/
def spawn (line : Line ω) (name : String) : Client ω (Except Fault Unit) := do
  match ← onWorld line.spawn with
  | .error reason => return .error (threadFault name reason)
  | .ok () => return .ok ()

/-! ## Opening a session -/

/-- How the handshake of a session stands when the wait for it is over. -/
def handshakeResult (s : Session) : Except Fault UInt64 :=
  match s.handshake with
  | .filled outcome => outcome
  | .empty | .taken =>
    .error (.known .connectionFailed "no NEW_SESSION_STATUS before the connect timeout")

/-- Asks for a session, and waits for the number that the coordinator gives to it. -/
def shakeHands (line : Line ω) (i : Nat) : Client ω (Except Fault UInt64) := do
  match ← transmit line i (.newSession Message.protocolVersion) with
  | .error e => return .error e.fault
  | .ok () => return handshakeResult ((← ambassador).session i)

/-- Starts the thread that gives signs of life, if any are to be given. -/
def startHeartbeats (line : Line ω) (i : Nat) : Client ω (Except Fault Unit) := do
  if ((← ambassador).session i).limits.heartbeat.isZero then return .ok ()
  spawn line "heartbeat"

/-- Settles the handshake of a new session and starts its heartbeats, or lets go of it. -/
def settleSession (line : Line ω) (i : Nat) : Client ω (Except Fault Unit) := do
  match ← onWorld line.start with
  | .error e =>
    release i
    return .error e.fault
  | .ok () =>
    match ← shakeHands line i with
    | .error e =>
      alterSession i (·.close.closeLink)
      release i
      return .error e
    | .ok id =>
      alterSession i (·.establish id)
      match ← startHeartbeats line i with
      | .error e =>
        release i
        return .error e
      | .ok () => return .ok ()

/-- Opens a link, and a session on it. -/
def openSession (line : Line ω) (settings : Settings) : Client ω (Except Fault Nat) := do
  match ← onWorld (line.connect settings.endpoint) with
  | .error e => return .error e.fault
  | .ok () =>
    let i ← onAmbassador (·.openSession (.ofSettings line.phrase settings))
    match ← settleSession line i with
    | .error e => return .error e
    | .ok () => return .ok i

/-! ## Connecting -/

/-- The call by which a federate asks for its connection. -/
def connectCall (model : CallbackModel) (localLine : Option String) : Envelope :=
  (Request.service .connect (model.name, localLine.getD "", ())).envelope

/-- Asks for the connection on a new session, or ends the session. -/
def askForConnection (line : Line ω) (i : Nat) (model : CallbackModel) (localLine : Option String) :
    Client ω (Except Fault Unit) := do
  match ← call line i (connectCall model localLine) with
  | .ok _ => return .ok ()
  | .error e =>
    terminate line i
    release i
    return .error e

/-- The federate does not count as connected if its session is already lost. -/
def noticeLoss (i : Nat) : Client ω Unit := do
  if ((← ambassador).session i).lost then alter (·.reset)

/-- Starts the thread that delivers callbacks as they arrive, if they are to be. -/
def startDispatcher (line : Line ω) (model : CallbackModel) : Client ω (Except Fault Unit) := do
  if model = .immediate then spawn line "dispatch" else return .ok ()

/-- Puts a connection into use, unless its dispatcher does not start. -/
def putIntoUse (line : Line ω) (c : Connection) : Client ω (Except Fault Unit) := do
  match ← startDispatcher line c.model with
  | .error e =>
    terminate line c.session
    alter (·.reset)
    release c.session
    return .error e
  | .ok () =>
    alter (·.use c)
    return .ok ()

/-- The federate is connected, unless its session has been lost meanwhile. -/
def establish (line : Line ω) (c : Connection) : Client ω (Except Fault Unit) := do
  alter (·.markConnected)
  noticeLoss c.session
  putIntoUse line c

/-- A session that was lost before may still have its notice to deliver; it ends here. The place of
the connection is held until it has. -/
def retireStale (line : Line ω) (handler : Handler ω) : Client ω Unit := do
  if let some c ← onAmbassador (·.seizeConnection) then
    stopDispatcher line handler c
    terminate line c.session
    release c.session
    alter (·.yieldConnection)

/-- The settings of a connection: changed by a line for it, and by overrides. -/
def connectionSettings (words : Settings.Words) (s : Settings)
    (localLine overrides : Option String) : Except Fault Settings :=
  match localLine with
  | none => .ok s
  | some text =>
    match s.localBy words text overrides with
    | .ok s => .ok s
    | .error e => .error e.fault

/-- Connects. -/
def connect (line : Line ω) (handler : Handler ω) (thread : Thread) (model : CallbackModel)
    (localLine overrides : Option String) : Attempt ω Unit := do
  passTwice .connect thread
  let a ← sure ambassador
  let settings ← attempt (pure (connectionSettings line.words a.settings localLine overrides))
  sure (retireStale line handler)
  let session ← attempt (openSession line settings)
  attempt (askForConnection line session model localLine)
  attempt (establish line { session, model, settings })

/-! ## Disconnecting -/

/-- Ends the session of a connection: tells the coordinator, and lets the dispatcher deliver what
has come. -/
def endConnection (line : Line ω) (handler : Handler ω) (c : Connection) : Client ω Unit := do
  let i := c.session
  unless ((← ambassador).session i).lost do
    discard (call line i ⟨Service.disconnect.code, []⟩)
  terminate line i
  stopDispatcher line handler c
  alter (·.reset)
  release i

/-- Disconnects; nothing happens without a connection. -/
def disconnect (line : Line ω) (handler : Handler ω) (thread : Thread) : Attempt ω Unit := do
  passTwice .disconnect thread
  match ← sure (onAmbassador (·.takeConnection)) with
  | none => return ()
  | some c => sure (endConnection line handler c)

/-- The federate lets go of its client. -/
def shutDown (line : Line ω) (handler : Handler ω) : Client ω Unit := do
  if let some c ← onAmbassador (·.takeConnection) then
    terminate line c.session
    stopDispatcher line handler c
    release c.session

end Federate.Client
