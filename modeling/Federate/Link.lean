/-
Links to a coordinator: where one leads, over which protocol, and how it can fail.
-/
import Federate.Duration
import Federate.Fault
namespace Federate

/-- How a link fails. -/
inductive LinkFault where
  | closed
  | disconnected (reason : String)
  | connectFailed (endpoint reason : String)
  | unsupportedProtocol (name : String)
  | alreadyStarted
  deriving DecidableEq, Repr

namespace LinkFault

def name : LinkFault → String
  | .closed => "Closed"
  | .disconnected _ => "Disconnected"
  | .connectFailed _ _ => "ConnectFailed"
  | .unsupportedProtocol _ => "UnsupportedProtocol"
  | .alreadyStarted => "AlreadyStarted"

/-- The wording of a failure. -/
def message : LinkFault → String
  | .closed => "transport closed"
  | .disconnected reason => "connection lost: " ++ reason
  | .connectFailed endpoint reason => "could not connect to " ++ endpoint ++ ": " ++ reason
  | .unsupportedProtocol n => "unsupported protocol: " ++ n
  | .alreadyStarted => "transport already started"

/-- The fault that a failure amounts to: a link that once stood is no longer connected, and
one that never did could not be connected. -/
def fault (e : LinkFault) : Fault :=
  match e with
  | .closed | .disconnected _ => .known .notConnected e.message
  | .connectFailed _ _ | .unsupportedProtocol _ | .alreadyStarted =>
    .known .connectionFailed e.message

end LinkFault

/-- The protocols that a link can use. -/
inductive Protocol where
  | tcp
  | tls
  | webSocket
  | webSocketSecure
  deriving DecidableEq, Repr

namespace Protocol

def name : Protocol → String
  | .tcp => "tcp"
  | .tls => "tls"
  | .webSocket => "websocket"
  | .webSocketSecure => "websocketsecure"

def all : List Protocol := [.tcp, .tls, .webSocket, .webSocketSecure]

/-- The protocol with exactly this name. -/
def ofName? (n : String) : Option Protocol := all.find? (·.name == n)

/-- The protocol that a name stands for, in ASCII letters of either case. -/
def ofText (s : String) : Except LinkFault Protocol :=
  match ofName? (s.map Char.toLower) with
  | some p => .ok p
  | none => .error (.unsupportedProtocol s)

theorem ofName?_name (p : Protocol) : ofName? p.name = some p := by cases p <;> rfl

end Protocol

/-- Where a link leads. -/
structure Endpoint where
  host : String
  port : UInt16
  protocol : Protocol
  /-- How long connecting may take; no limit when zero. -/
  timeout : Duration
  deriving DecidableEq, Repr

/-- The endpoint in words, such as `tcp://localhost:15164`. -/
def Endpoint.text (e : Endpoint) : String := e.protocol.name ++ "://" ++ e.host ++ s!":{e.port}"

end Federate
