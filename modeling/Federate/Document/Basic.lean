/-
Documents: values of the library in JSON, for scripts that are read and reports
that are written. Bytes are hexadecimal, and numbers that may not fit a double
are decimal strings. A document that cannot be read is answered by a report of
its own, which is that of a fault when a value's own rules refuse it.
-/
import Federate.Packet.Header
import Federate.Settings
import Federate.Text.Json
import Federate.Text.Quoted
namespace Federate.Document

open Text (Json)

/-- A reading of a document, or the report that refuses it. -/
abbrev Reading := Except Json

def text (s : String) : Json := .ofString s
def truth (b : Bool) : Json := .bool b
def number (n : Nat) : Json := .ofNat n
def decimal (n : Int) : Json := text (toString n)
def hex (bs : Bytes) : Json := text (String.join (bs.map Text.hexPair))

/-- A document that is not what was expected. -/
def refuse {α : Type} (what : String) : Reading α := .error (.ofMembers [("malformed", text what)])

/-! ## Reading -/

def readText (v : Json) : Reading String :=
  match v.string? with
  | some s => .ok s
  | none => refuse "text"

def readTruth : Json → Reading Bool
  | .bool b => .ok b
  | _ => refuse "truth value"

/-- The items of an array; none where there is nothing. -/
def readItems : Json → Reading (List Json)
  | .array items => .ok items
  | .null => .ok []
  | _ => refuse "array"

/-- A number, plain or as a decimal string. -/
def readNumber (v : Json) : Reading Nat :=
  match v.natural?, v.string? with
  | some n, _ => .ok n
  | none, some s =>
    match s.toNat? with
    | some n => .ok n
    | none => refuse "number"
  | none, none => refuse "number"

def readInteger (v : Json) : Reading Int := do
  match (← readText v).toInt? with
  | some n => return n
  | none => refuse "integer"

/-- A value, or none where there is nothing. -/
def readOption {α : Type} (read : Json → Reading α) : Json → Reading (Option α)
  | .null => .ok none
  | v => do return some (← read v)

def readPair {α β : Type} (readLeft : Json → Reading α) (readRight : Json → Reading β) :
    Json → Reading (α × β)
  | .array [a, b] => do return (← readLeft a, ← readRight b)
  | _ => refuse "pair"

/-- The bytes of pairs of digits; a last digit without a partner does not count. -/
def readHexDigits : List Char → Option Bytes
  | [] | [_] => some []
  | a :: b :: rest => do
    let high ← Json.hexDigit? a
    let low ← Json.hexDigit? b
    return UInt8.ofNat (high * 16 + low) :: (← readHexDigits rest)

def readHex (v : Json) : Reading Bytes := do
  match readHexDigits (← readText v).toList with
  | some bs => return bs
  | none => refuse "bytes"

def readWord (v : Json) : Reading UInt32 := do return UInt32.ofNat (← readNumber v)

/-! ## Outcomes -/

/-- A fault; one that travelled under another name reports that name too. -/
def fault (e : Fault) : Json :=
  .ofMembers <| [("error", text e.name), ("message", text e.message)] ++
    if e.originalName = e.name then []
    else [("original", text e.originalName), ("details", text e.details)]

def packetFlaw (e : Packet.Flaw) : Json :=
  let name := match e with
    | .tooShort _ _ => "BufferTooShort"
    | .badSize _ => "InvalidPacketSize"
    | .unknownKind _ => "UnknownMessageType"
    | .unexpectedKind _ => "UnexpectedMessageType"
    | .badMessage _ => "BadMessage"
  .ofMembers [("error", text name), ("message", text e.message), ("rti", fault e.fault)]

def linkFault (e : LinkFault) : Json :=
  .ofMembers [("error", text e.name), ("message", text e.message), ("rti", fault e.fault)]

def settingsFault (e : SettingsFault) : Json :=
  .ofMembers [("error", text e.name), ("message", text e.message), ("rti", text e.fault.name)]

/-- A value or a fault. -/
def outcome {α : Type} (f : α → Json) : Except Fault α → Json
  | .ok a => f a
  | .error e => fault e

/-- Success without a value, or a fault. -/
def success : Except Fault Unit → Json := outcome fun _ => text "ok"

/-- Goes on with a value, or reports its fault. -/
def sound {α : Type} : Except Fault α → Reading α
  | .ok a => .ok a
  | .error e => .error (fault e)

def ordering : Ordering → Json
  | .lt => .ofInt (-1)
  | .eq => .ofInt 0
  | .gt => .ofInt 1

/-- The failure of a link. -/
def readLinkFault (v : Json) : Reading LinkFault := do
  let reason := (v.member "text").string?.getD ""
  match ← readText (v.member "kind") with
  | "Closed" => return .closed
  | "Disconnected" => return .disconnected reason
  | "ConnectFailed" => return .connectFailed ((v.member "endpoint").string?.getD "") reason
  | "UnsupportedProtocol" => return .unsupportedProtocol reason
  | "AlreadyStarted" => return .alreadyStarted
  | _ => refuse "link fault"

end Federate.Document
