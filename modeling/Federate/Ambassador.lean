/-
The ambassador: what a client keeps for its federate over all its sessions. The
standing is one for all of them; the sessions stand in the order in which they
began, so that a thread that still works on an old one can name it.
-/
import Federate.Session.Call
import Federate.Session.Presence
namespace Federate

/-- The threads of a client. -/
inductive Thread where
  /-- The federate's own thread. -/
  | application
  /-- The thread that delivers callbacks as they arrive. -/
  | dispatcher
  /-- Another thread of the federate. -/
  | background (n : Nat)
  deriving DecidableEq, Repr

/-- The connection that a federate uses. -/
structure Connection where
  session : Nat
  model : CallbackModel
  /-- The settings with the changes for this connection. -/
  settings : Settings

/-- What a client keeps for its federate. -/
structure Ambassador where
  settings : Settings
  standing : Standing
  /-- The thread on which a handler runs. -/
  handling : Option Thread
  sessions : List Session
  connection : Option Connection
  /-- Somebody holds the place of the connection: whoever looks for it waits. -/
  held : Bool
  /-- The time since the client began. -/
  clock : Duration

namespace Ambassador

/-- A client that has not connected yet. -/
def fresh (settings : Settings) : Ambassador where
  settings := settings
  standing := .idle
  handling := none
  sessions := []
  connection := none
  held := false
  clock := .zero

/-- The session of a number. -/
def session (a : Ambassador) (i : Nat) : Session := a.sessions[i]?.getD .gone

/-- A step on a session. -/
def onSession {α : Type} (a : Ambassador) (i : Nat) (f : Session → α × Session) : α × Ambassador :=
  ((f (a.session i)).1, { a with sessions := a.sessions.modify i fun s => (f s).2 })

/-- The ambassador with a session changed. -/
def alterSession (a : Ambassador) (i : Nat) (f : Session → Session) : Ambassador :=
  { a with sessions := a.sessions.modify i f }

/-- The session of a number with the standing. -/
def presence (a : Ambassador) (i : Nat) : Presence := ⟨a.session i, a.standing⟩

/-- A step on a session and the standing. -/
def onPresence {α : Type} (a : Ambassador) (i : Nat) (f : Presence → α × Presence) :
    α × Ambassador :=
  let (result, p) := f (a.presence i)
  (result, { a with sessions := a.sessions.set i p.session, standing := p.standing })

theorem session_onPresence {α : Type} {a : Ambassador} {i : Nat} (f : Presence → α × Presence)
    (known : i < a.sessions.length) :
    (a.onPresence i f).2.session i = (f (a.presence i)).2.session := by
  simp [onPresence, session, known]

/-- Is a handler running on the thread? -/
def inCallback (a : Ambassador) (t : Thread) : Bool := a.handling == some t

/-- The connection in use, if there is one; nobody gets to see it while its place is held. -/
def look (a : Ambassador) : Option (Option Connection) := if a.held then none else some a.connection

/-- Are updates sent without waiting for their answer? The connection says so. -/
def asyncUpdates (a : Ambassador) : Option Bool :=
  a.look.map fun c => c.any (·.settings.asyncUpdates)

/-- The session in use. -/
def current? (a : Ambassador) : Option Session := a.connection.map fun c => a.session c.session

/-- The counts of the session in use, zero without one. -/
def tally (a : Ambassador) : Tally := (a.current?.map (·.tally)).getD .zero

/-- How many packets the link in use has accepted, as a counter of 64 bits shows it. -/
def packetsSent (a : Ambassador) : UInt64 := .ofNat ((a.current?.map (·.packetsSent)).getD 0)

/-- The gates of an operation, for a thread. -/
def accept (a : Ambassador) (op : Operation) (t : Thread) : Except Fault Ambassador := do
  let standing ← a.standing.accept op (a.inCallback t)
  return { a with standing }

/-! ## The connection -/

/-- The connection, which is then no longer in use. -/
def takeConnection (a : Ambassador) : Option Connection × Ambassador :=
  (a.connection, { a with connection := none })

/-- Takes the connection, and holds its place if there was one. -/
def seizeConnection (a : Ambassador) : Option Connection × Ambassador :=
  (a.connection, { a with connection := none, held := a.connection.isSome })

/-- The place of the connection is no longer held. -/
def yieldConnection (a : Ambassador) : Ambassador := { a with held := false }

/-- A new session behind all others. -/
def openSession (a : Ambassador) (limits : Session.Limits) : Nat × Ambassador :=
  (a.sessions.length, { a with sessions := a.sessions ++ [.fresh limits a.clock] })

/-- The federate is connected, and nothing else is known of it. -/
def markConnected (a : Ambassador) : Ambassador := { a with standing := .fresh }

/-- The federate counts as one that never connected. -/
def reset (a : Ambassador) : Ambassador := { a with standing := .idle }

/-- Puts a connection into use. -/
def use (a : Ambassador) (c : Connection) : Ambassador := { a with connection := some c }

theorem session_alterSession {a : Ambassador} {i : Nat} (f : Session → Session)
    (h : i < a.sessions.length) : (a.alterSession i f).session i = f (a.session i) := by
  simp [session, alterSession, List.getElem?_eq_getElem h]

theorem length_alterSession (a : Ambassador) (i : Nat) (f : Session → Session) :
    (a.alterSession i f).sessions.length = a.sessions.length := by
  simp [alterSession]

end Ambassador

end Federate
