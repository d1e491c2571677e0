/-
The header of a packet: twenty-four bytes with the packet's size, its number,
the session it belongs to, the number last received by its sender, and the kind
of message it carries. A header that parses is written back as it was
(`bytes_of_parse`), and a written one parses (`parse_bytes`).
-/
import Federate.Bytes
import Federate.Fault
namespace Federate

/-- The kinds of message. Those about resuming a session are known but not used. -/
inductive MessageKind where
  | newSession
  | newSessionStatus
  | heartbeat
  | heartbeatResponse
  | terminateSession
  | sessionTerminated
  | resumeRequest
  | resumeStatus
  | callRequest
  | callResponse
  | callbackRequest
  | callbackResponse
  deriving DecidableEq, Repr

namespace MessageKind

/-- The number that stands for a kind. -/
def code : MessageKind → UInt32
  | .newSession => 1
  | .newSessionStatus => 2
  | .heartbeat => 3
  | .heartbeatResponse => 4
  | .terminateSession => 5
  | .sessionTerminated => 6
  | .resumeRequest => 10
  | .resumeStatus => 11
  | .callRequest => 20
  | .callResponse => 21
  | .callbackRequest => 22
  | .callbackResponse => 23

def name : MessageKind → String
  | .newSession => "NEW_SESSION"
  | .newSessionStatus => "NEW_SESSION_STATUS"
  | .heartbeat => "HEARTBEAT"
  | .heartbeatResponse => "HEARTBEAT_RESPONSE"
  | .terminateSession => "TERMINATE_SESSION"
  | .sessionTerminated => "SESSION_TERMINATED"
  | .resumeRequest => "RESUME_REQUEST"
  | .resumeStatus => "RESUME_STATUS"
  | .callRequest => "CALL_REQUEST"
  | .callResponse => "CALL_RESPONSE"
  | .callbackRequest => "CALLBACK_REQUEST"
  | .callbackResponse => "CALLBACK_RESPONSE"

def all : List MessageKind :=
  [.newSession, .newSessionStatus, .heartbeat, .heartbeatResponse, .terminateSession,
   .sessionTerminated, .resumeRequest, .resumeStatus, .callRequest, .callResponse,
   .callbackRequest, .callbackResponse]

/-- The kind that a number stands for. -/
def ofCode? (n : UInt32) : Option MessageKind := all.find? (·.code == n)

/-- Does the message belong to a call or a callback, rather than to the session itself? -/
def isService : MessageKind → Bool
  | .callRequest | .callResponse | .callbackRequest | .callbackResponse => true
  | _ => false

theorem ofCode?_code (k : MessageKind) : ofCode? k.code = some k := by cases k <;> rfl

theorem code_of_ofCode? {n : UInt32} {k : MessageKind} (h : ofCode? n = some k) : k.code = n := by
  have := List.find?_some h
  simpa using this

end MessageKind

/-- Why bytes are not a packet. -/
inductive Packet.Flaw where
  | tooShort (expected actual : Nat)
  | badSize (size : UInt32)
  | unknownKind (code : UInt32)
  /-- A message that this client neither sends nor accepts. -/
  | unexpectedKind (kind : MessageKind)
  | badMessage (details : String)
  deriving DecidableEq, Repr

namespace Packet.Flaw

/-- The wording of a flaw. -/
def message : Flaw → String
  | .tooShort expected actual => s!"buffer too short: expected {expected}, got {actual}"
  | .badSize n => s!"invalid packet size {n}"
  | .unknownKind n => s!"unknown message type {n}"
  | .unexpectedKind k => "unexpected message type " ++ k.name
  | .badMessage d => "bad message body: " ++ d

/-- The flaw that a fault in reading a message amounts to. -/
def ofFault (e : Fault) : Flaw := .badMessage e.details

/-- The fault that a flaw amounts to for the federate. -/
def fault (e : Flaw) : Fault := .couldNotDecode e.message

end Packet.Flaw

namespace Packet

/-- The header of a packet. -/
structure Header where
  packetSize : UInt32
  sequenceNumber : UInt32
  session : UInt64
  lastReceived : UInt32
  kind : MessageKind
  deriving DecidableEq, Repr

/-- The number of bytes of a header. -/
abbrev headerLength : Nat := 24

namespace Header

/-- The header of a message whose body has so many bytes; the size is kept in 32 bits. -/
def ofBody (kind : MessageKind) (sequenceNumber : UInt32) (session : UInt64)
    (lastReceived : UInt32) (bodyLength : Nat) : Header :=
  { packetSize := UInt32.ofNat (headerLength + bodyLength)
    sequenceNumber, session, lastReceived, kind }

/-- The number of bytes that follow the header; `none` when the size does not even cover it. -/
def bodyLength? (h : Header) : Option Nat :=
  if headerLength ≤ h.packetSize.toNat then some (h.packetSize.toNat - headerLength) else none

def bytes (h : Header) : Bytes :=
  Bytes.ofUInt32 h.packetSize ++ Bytes.ofUInt32 h.sequenceNumber ++ Bytes.ofUInt64 h.session ++
    Bytes.ofUInt32 h.lastReceived ++ Bytes.ofUInt32 h.kind.code

/-- The number in `width` bytes at `offset`. -/
def numberAt (bs : Bytes) (offset width : Nat) : Nat := Bytes.toNat ((bs.drop offset).take width)

/-- The header at the front of some bytes. -/
def parse (bs : Bytes) : Except Flaw Header :=
  if bs.length < headerLength then .error (.tooShort headerLength bs.length)
  else
    let size := UInt32.ofNat (numberAt bs 0 4)
    if size.toNat < headerLength then .error (.badSize size)
    else
      let code := UInt32.ofNat (numberAt bs 20 4)
      match MessageKind.ofCode? code with
      | none => .error (.unknownKind code)
      | some kind => .ok
        { packetSize := size
          sequenceNumber := UInt32.ofNat (numberAt bs 4 4)
          session := UInt64.ofNat (numberAt bs 8 8)
          lastReceived := UInt32.ofNat (numberAt bs 16 4)
          kind }

/-- The header written over the front of a buffer. -/
def writeOver (h : Header) (buffer : Bytes) : Except Flaw Bytes :=
  match buffer.overwrite? 0 h.bytes with
  | some out => .ok out
  | none => .error (.tooShort headerLength buffer.length)

@[simp] theorem length_bytes (h : Header) : h.bytes.length = headerLength := by
  simp [bytes]

theorem bytes_of_parse {bs : Bytes} {h : Header} (hp : parse bs = .ok h) :
    h.bytes = bs.take headerLength := by
  unfold parse at hp
  split at hp
  · cases hp
  rename_i hlen
  simp only at hp
  split at hp
  · cases hp
  split at hp
  · cases hp
  rename_i kind hk
  cases hp
  have hl : 24 ≤ bs.length := Nat.le_of_not_lt hlen
  have piece : ∀ (o w : Nat), o + w ≤ 24 → ((bs.drop o).take w).length = w := by
    intro o w hw
    rw [List.length_take, List.length_drop]
    omega
  simp only [bytes, MessageKind.code_of_ofCode? hk, numberAt]
  rw [Bytes.ofUInt32_toNat (piece 0 4 (by omega)), Bytes.ofUInt32_toNat (piece 4 4 (by omega)),
    Bytes.ofUInt64_toNat (piece 8 8 (by omega)), Bytes.ofUInt32_toNat (piece 16 4 (by omega)),
    Bytes.ofUInt32_toNat (piece 20 4 (by omega))]
  have hs : ∀ n m, bs.take n ++ (bs.drop n).take m = bs.take (n + m) :=
    fun n m => List.take_add.symm
  rw [List.drop_zero, hs 4 4, hs 8 8, hs 16 4, hs 20 4]

private theorem numberAt_middle (a b c : Bytes) {o w : Nat} (ha : a.length = o)
    (hb : b.length = w) : numberAt (a ++ (b ++ c)) o w = b.toNat := by
  subst ha hb
  simp [numberAt]

/-- A written header has its packet's number in its second four bytes. -/
theorem numberAt_bytes (h : Header) (body : Bytes) :
    numberAt (h.bytes ++ body) 4 4 = h.sequenceNumber.toNat := by
  simp only [bytes, List.append_assoc]
  rw [numberAt_middle _ _ _ (Bytes.length_ofUInt32 _) (Bytes.length_ofUInt32 _)]
  exact Bytes.toNat_ofUInt32 h.sequenceNumber

/-- A written header has its packet's session in the eight bytes after that. -/
theorem numberAt_bytes_session (h : Header) (body : Bytes) :
    numberAt (h.bytes ++ body) 8 8 = h.session.toNat := by
  have grouped : h.bytes ++ body =
      (Bytes.ofUInt32 h.packetSize ++ Bytes.ofUInt32 h.sequenceNumber) ++
        (Bytes.ofUInt64 h.session ++ (Bytes.ofUInt32 h.lastReceived ++ (Bytes.ofUInt32 h.kind.code ++ body))) := by
    simp only [bytes, List.append_assoc]
  rw [grouped, numberAt_middle _ _ _ (by simp) (Bytes.length_ofUInt64 _)]
  exact Bytes.toNat_ofUInt64 h.session

theorem parse_bytes (h : Header) (hs : headerLength ≤ h.packetSize.toNat) (body : Bytes) :
    parse (h.bytes ++ body) = .ok h := by
  have middle : ∀ (a b c : Bytes) (o w : Nat), h.bytes ++ body = a ++ (b ++ c) → a.length = o →
      b.length = w → numberAt (h.bytes ++ body) o w = b.toNat :=
    fun a b c o w he ha hb => he ▸ numberAt_middle a b c ha hb
  have n0 := middle [] (Bytes.ofUInt32 h.packetSize) _ 0 4
    (by simp only [bytes, List.append_assoc, List.nil_append]; rfl) rfl (Bytes.length_ofUInt32 _)
  have n4 := middle (Bytes.ofUInt32 h.packetSize) (Bytes.ofUInt32 h.sequenceNumber) _ 4 4
    (by simp only [bytes, List.append_assoc]; rfl) (Bytes.length_ofUInt32 _)
    (Bytes.length_ofUInt32 _)
  have n8 := middle (Bytes.ofUInt32 h.packetSize ++ Bytes.ofUInt32 h.sequenceNumber)
    (Bytes.ofUInt64 h.session) _ 8 8
    (by simp only [bytes, List.append_assoc]; rfl) (by simp) (Bytes.length_ofUInt64 _)
  have n16 := middle (Bytes.ofUInt32 h.packetSize ++ Bytes.ofUInt32 h.sequenceNumber ++
    Bytes.ofUInt64 h.session) (Bytes.ofUInt32 h.lastReceived) _ 16 4
    (by simp only [bytes, List.append_assoc]; rfl) (by simp) (Bytes.length_ofUInt32 _)
  have n20 := middle (Bytes.ofUInt32 h.packetSize ++ Bytes.ofUInt32 h.sequenceNumber ++
    Bytes.ofUInt64 h.session ++ Bytes.ofUInt32 h.lastReceived) (Bytes.ofUInt32 h.kind.code) _ 20 4
    (by simp only [bytes, List.append_assoc]; rfl) (by simp) (Bytes.length_ofUInt32 _)
  unfold parse
  rw [if_neg (by simp)]
  simp only [n0, n4, n8, n16, n20, Bytes.toNat_ofUInt32, Bytes.toNat_ofUInt64, UInt32.ofNat_toNat,
    UInt64.ofNat_toNat, MessageKind.ofCode?_code]
  rw [if_neg (by omega)]

end Header

end Packet

end Federate
