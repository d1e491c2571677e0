/-
Packets: a header and the message it announces. A packet is decoded only from
exactly the bytes that encoding it gives, neither fewer nor more.
-/
import Federate.Packet.Message
namespace Federate

/-- A packet. -/
structure Packet where
  header : Packet.Header
  message : Message
  deriving DecidableEq, Repr

namespace Packet

/-- The bytes of the packet that carries a message under a number, for a session. -/
def encode (m : Message) (sequenceNumber : UInt32) (session : UInt64) (lastReceived : UInt32) :
    Bytes :=
  (Header.ofBody m.kind sequenceNumber session lastReceived m.body.length).bytes ++ m.body

/-- The packet that bytes make up, which must be there whole and alone. -/
def decode (bs : Bytes) : Except Flaw Packet := do
  let header ← Header.parse bs
  let size := header.packetSize.toNat
  if bs.length < size then throw (.tooShort size bs.length)
  if size < bs.length then
    throw (.badMessage s!"{bs.length - size} bytes past declared packet size {size}")
  match Message.readBody? header.kind with
  | none => throw (.unexpectedKind header.kind)
  | some reader =>
    match reader.whole (bs.drop headerLength) with
    | .ok message => pure { header, message }
    | .error e => throw (.ofFault e)

end Packet

end Federate
