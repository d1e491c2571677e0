/-
A link within one process. Packets to the peer wait in one queue, packets and
the end of the link to the client in another, from which a reader hands them to
the client one by one. Each operation is one step; closing the link lets the
reader take up what the peer had sent before.
-/
import Federate.Bytes
import Federate.Link
namespace Federate

/-- What waits for the client's reader. -/
inductive Loopback.Item where
  | packet (bs : Bytes)
  /-- The peer cut the link. -/
  | lost (reason : String)
  /-- The client closed the link. -/
  | closed
  deriving DecidableEq, Repr

/-- What the client's reader hands on. -/
inductive Loopback.Event where
  | packet (bs : Bytes)
  | lost (reason : String)
  deriving DecidableEq, Repr

/-- How far the client's reader has come. -/
inductive Loopback.Stage where
  | unstarted
  | reading
  /-- The reader has ended, or never began and no longer can. -/
  | ended
  deriving DecidableEq, Repr

/-- A link within one process. -/
structure Loopback where
  /-- Packets for the peer. -/
  outbound : List Bytes
  /-- What waits for the reader. -/
  inbound : List Loopback.Item
  stage : Loopback.Stage
  closed : Bool
  severed : Bool
  /-- How many packets the peer was sent; the count that is shown has 64 bits. -/
  sent : Nat
  deriving DecidableEq, Repr

namespace Loopback

/-- A new link. -/
def fresh : Loopback where
  outbound := []
  inbound := []
  stage := .unstarted
  closed := false
  severed := false
  sent := 0

/-- The queue to the client with one more item, unless nobody will read it. -/
def offer (l : Loopback) (i : Item) : Loopback :=
  match l.stage with
  | .ended => l
  | _ => { l with inbound := l.inbound ++ [i] }

/-- The client begins to read, unless the reader cannot be started for some reason: then nobody will
read the queue. -/
def start (l : Loopback) (failure : Option String) : Except LinkFault Unit × Loopback :=
  match l.stage, failure with
  | .unstarted, none => (.ok (), { l with stage := .reading })
  | .unstarted, some reason =>
    (.error (.connectFailed "memory" reason), { l with inbound := [], stage := .ended })
  | _, _ => (.error .alreadyStarted, l)

/-- The client sends a packet. -/
def send (l : Loopback) (bs : Bytes) : Except LinkFault Loopback :=
  if l.closed then .error .closed
  else if l.severed then .error (.disconnected "peer severed the connection")
  else .ok { l with outbound := l.outbound ++ [bs], sent := l.sent + 1 }

/-- How many packets the peer was sent, as a counter of 64 bits shows it. -/
def framesSent (l : Loopback) : UInt64 := .ofNat l.sent

/-- The client closes the link. -/
def close (l : Loopback) : Loopback :=
  if l.closed then l else { l.offer .closed with closed := true }

/-- The peer sends a packet. -/
def peerSend (l : Loopback) (bs : Bytes) : Except LinkFault Loopback :=
  if l.severed then .error .closed
  else match l.stage with
    | .ended => .error (.disconnected "client dropped")
    | _ => .ok (l.offer (.packet bs))

/-- The peer takes up the next packet sent to it. -/
def receive (l : Loopback) : Option Bytes × Loopback :=
  match l.outbound with
  | [] => (none, l)
  | bs :: rest => (some bs, { l with outbound := rest })

/-- The peer cuts the link. -/
def sever (l : Loopback) (reason : String) : Loopback :=
  if l.severed then l else { l.offer (.lost reason) with severed := true }

/-- The peer goes away. -/
def dropPeer (l : Loopback) : Loopback := l.sever "coordinator went away"

/-- The reader takes up the next item; nothing when it does not read or nothing waits. -/
def read (l : Loopback) : Option Event × Loopback :=
  match l.stage, l.inbound with
  | .reading, .packet bs :: rest => (some (.packet bs), { l with inbound := rest })
  | .reading, .lost reason :: _ => (some (.lost reason), { l with inbound := [], stage := .ended })
  | .reading, .closed :: _ => (none, { l with inbound := [], stage := .ended })
  | _, _ => (none, l)

/-- The reader runs until nothing waits. The client closes the link as soon as it is handed a
packet for which `closeOn` holds. -/
def drain (closeOn : Bytes → Bool) : (fuel : Nat) → Loopback → List Event × Loopback
  | 0, l => ([], l)
  | fuel + 1, l =>
    match l.read with
    | (none, l) => ([], l)
    | (some e, l) =>
      let l := match e with
        | .packet bs => if closeOn bs then l.close else l
        | .lost _ => l
      let (es, l) := drain closeOn fuel l
      (e :: es, l)

/-- Each item is taken up once, and closing adds one more at most. -/
def settle (closeOn : Bytes → Bool) (l : Loopback) : List Event × Loopback :=
  l.drain closeOn (l.inbound.length + 2)

/-- The client goes away: the link closes, and what nobody began to read is dropped. -/
def dropClient (l : Loopback) : Loopback :=
  match l.close.stage with
  | .unstarted => { l.close with inbound := [], stage := .ended }
  | _ => l.close

end Loopback

end Federate
