/-
A federate's presence with its coordinator: a session, and the standing that it
shares with the rest of the client. Here packets are taken in, and the session
is lost: every waiting caller is woken, the link closes, and unless the
federate itself was ending the session, the standing falls back and one notice
is queued. Only the first loss does anything (`lose_lose`).
-/
import Federate.Session
import Federate.Service.Request
import Federate.Standing
namespace Federate

/-- A session with the standing of its federate. -/
structure Presence where
  session : Session
  standing : Standing

/-- What is still to be done about a packet. -/
structure Presence.Reaction where
  reply : Option Message
  /-- Why the session is lost. -/
  loss : Option String
  deriving DecidableEq

namespace Presence

def onSession (p : Presence) (f : Session → Session) : Presence := { p with session := f p.session }

/-! ## Packets -/

/-- The time family in the answer to a join counts for what arrives after it. -/
def noteJoin (p : Presence) (tag : UInt16) (payload : Bytes) : Presence :=
  if tag = Service.joinFederationExecution.code then
    match Service.readMembership.whole payload with
    | .ok (_, family) => { p with standing := p.standing.join family }
    | .error _ => p
  else p

/-- Notes a join before its caller is woken. -/
def noteOutcome (p : Presence) (tag : UInt16) : CallOutcome → Presence
  | .result payload => p.noteJoin tag payload
  | .fault _ _ => p

def isFault : CallOutcome → Bool
  | .result _ => false
  | .fault _ _ => true

/-- Takes in the answer to the call of a number, if one waits under it. -/
def resolve (p : Presence) (number : UInt32) (outcome : CallOutcome) : Presence :=
  let p := p.onSession (·.count (.countResponse (isFault outcome)))
  let (entry, session) := p.session.claim number
  let p := { p with session }
  match entry with
  | some (.blocking ticket tag) =>
    (p.noteOutcome tag outcome).onSession (·.wake ticket (.ok outcome))
  | some (.detached _) | none => p

/-- What a status says about the handshake. -/
def handshakeOutcome (h : Packet.Header) : SessionStatus → Except Fault UInt64
  | .ok => .ok h.session
  | status => .error (.known .connectionFailed
      ("coordinator refused the session: " ++ status.describe))

/-- Why a session is lost when the coordinator ends it. -/
def terminated : String := "coordinator terminated the session"

/-- Takes in a packet. -/
def receive (p : Presence) (packet : Packet) (now : Duration) : Reaction × Presence :=
  let number := packet.header.sequenceNumber
  let p := p.onSession (·.stamp number now)
  match packet.message with
  | .newSessionStatus status =>
    (⟨none, none⟩, p.onSession (·.shake (handshakeOutcome packet.header status)))
  | .heartbeat => (⟨some (.heartbeatResponse number), none⟩, p)
  | .terminateSession =>
    (⟨some .sessionTerminated, some terminated⟩, p)
  | .sessionTerminated => (⟨none, none⟩, p.onSession (·.noteTerminated))
  | .callResponse n outcome => (⟨none, none⟩, p.resolve n outcome)
  | .callbackRequest e =>
    (⟨none, none⟩,
     p.onSession fun s => (s.count .countCallback).onQueue (·.push (.request number e)))
  | .heartbeatResponse _ | .newSession _ | .callRequest _ | .callbackResponse _ _ =>
    (⟨none, none⟩, p)

/-! ## Loss -/

/-- Wakes all callers that wait for an answer. -/
def wakeAll (s : Session) (reason : String) : Session :=
  let (waiting, s) := s.drain
  waiting.foldl (fun s p => s.wakePending p (.error (.known .notConnected reason))) s

/-- Ends all waits and closes the link. -/
def tearDown (s : Session) (reason : String) : Session :=
  ((wakeAll s reason).shake (.error (.known .connectionFailed reason))).noteTerminated.closeLink

/-- The federate learns of the loss: its standing falls back, and one notice is queued. -/
def announce (p : Presence) (reason : String) : Presence where
  session := p.session.onQueue (·.push (.lost reason))
  standing := .idle

/-- Loses the session, unless it is lost already. -/
def lose (p : Presence) (reason : String) : Presence :=
  if p.session.lost then p
  else
    let closing := p.session.closing
    let p := p.onSession fun s => tearDown s.strike reason
    if closing then p else p.announce reason

theorem lost_foldl_wakePending (ps : List Session.Pending) (w : Session.Wakening) (s : Session) :
    (ps.foldl (fun s p => s.wakePending p w) s).lost = s.lost := by
  induction ps generalizing s with
  | nil => rfl
  | cons p ps ih =>
    rw [List.foldl_cons, ih]
    cases p <;> rfl

theorem lost_tearDown (s : Session) (reason : String) : (tearDown s reason).lost = s.lost := by
  show (wakeAll s reason).lost = s.lost
  exact lost_foldl_wakePending _ _ _

theorem lost_lose (p : Presence) (reason : String) : (p.lose reason).session.lost = true := by
  unfold lose
  split
  · assumption
  · dsimp only
    split
    · exact lost_tearDown _ _
    · exact lost_tearDown _ _

/-- Only the first loss does anything. -/
theorem lose_lose (p : Presence) (reason again : String) :
    (p.lose reason).lose again = p.lose reason := by
  rw [lose, if_pos (lost_lose p reason)]

end Presence

end Federate
