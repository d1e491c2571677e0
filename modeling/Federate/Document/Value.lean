/-
Documents of the values in payloads: handles, times and all that a shape can hold.
-/
import Federate.Document.Basic
import Federate.Payload.Shape
namespace Federate.Document

open Text (Json)

def handle {k : Handle.Kind} (h : Handle k) : Json := hex h.bytes

def readHandle (k : Handle.Kind) (v : Json) : Reading (Handle k) := do
  sound (Handle.ofBytes k (← readHex v))

def handles {k : Handle.Kind} (s : Handle.Set k) : Json := .array (s.keys.map handle)

def readHandles (k : Handle.Kind) (v : Json) : Reading (Handle.Set k) := do
  return .ofList ((← (← readItems v).mapM (readHandle k)).map (·, ()))

def values {k : Handle.Kind} (m : Handle.Map k) : Json :=
  .array (m.entries.map fun e => .array [handle e.1, hex e.2])

def readValues (k : Handle.Kind) (v : Json) : Reading (Handle.Map k) := do
  return .ofList (← (← readItems v).mapM (readPair (readHandle k) readHex))

def readFamily (v : Json) : Reading TimeFamily := do
  match ← readText v with
  | "int" => return .discrete
  | "float" => return .continuous
  | _ => refuse "time family"

private def readBits (v : Json) : Reading UInt64 := do return UInt64.ofNat (← readHex v).toNat

def time (t : Time) : Json :=
  match t with
  | .discrete d => .ofMembers [("int", decimal d.ticks), ("text", text t.text)]
  | .continuous c => .ofMembers [("float", hex c.bytes), ("text", text t.text)]

def readTime (v : Json) : Reading Time := do
  match v.member "int" with
  | .null => return .continuous ⟨← readBits (v.member "float")⟩
  | n => return .discrete (← sound (DiscreteTime.ofInt (← readInteger n)))

def interval (i : Interval) : Json :=
  match i with
  | .discrete d => .ofMembers [("int", decimal d.ticks), ("text", text i.text)]
  | .continuous c => .ofMembers [("float", hex c.bytes), ("text", text i.text)]

def readInterval (v : Json) : Reading Interval := do
  match v.member "int" with
  | .null => return .continuous ⟨← readBits (v.member "float")⟩
  | n =>
    match DiscreteInterval.ofInt? (← readInteger n) with
    | some i => return .discrete i
    | none => refuse "interval"

/-- The bits of a double that was computed; those that are no number all look alike. -/
private def computedBits (bits : UInt64) (bs : Bytes) : Json :=
  if (Float.ofBits bits).isNaN then text "nan" else hex bs

/-- A time that was computed. -/
def computedTime (t : Time) : Json :=
  match t with
  | .continuous c => .ofMembers [("float", computedBits c.bits c.bytes), ("text", text t.text)]
  | .discrete _ => time t

/-- An interval that was computed. -/
def computedInterval (i : Interval) : Json :=
  match i with
  | .continuous c => .ofMembers [("float", computedBits c.bits c.bytes), ("text", text i.text)]
  | .discrete _ => interval i

def readOrder (v : Json) : Reading MessageOrder := do
  match ← readText v with
  | "Receive" => return .receive
  | "Timestamp" => return .timestamp
  | _ => refuse "order"

def extent (e : Extent) : Json := .array [decimal e.lower.toNat, decimal e.upper.toNat]

def readExtent (v : Json) : Reading Extent := do
  let (lower, upper) ← readPair readNumber readNumber v
  sound (Extent.ofBounds (UInt64.ofNat lower) (UInt64.ofNat upper))

def readTransportation (v : Json) : Reading Transportation := do
  sound (Transportation.ofName (← readText v))

def info (i : MessageInfo) : Json :=
  .ofMembers [("order", text i.order.name), ("transportation", text i.transportation.name),
    ("producer", handle i.producer), ("time", .ofOption time i.time)]

def readInfo (v : Json) : Reading MessageInfo := do
  let order ← readOrder (v.member "order")
  let transportation ← readTransportation (v.member "transportation")
  let producer ← readHandle .federate (v.member "producer")
  let time ← readOption readTime (v.member "time")
  return { order, transportation, producer, time }

/-- The document of a value of a shape. -/
def value : (s : Shape) → s.Value → Json
  | .text, v => text v
  | .blob, v => hex v
  | .flag, v => truth v
  | .word, v => number v.toNat
  | .handle _, v => handle v
  | .handles _, v => handles v
  | .values _, v => values v
  | .transportation, v => text v.name
  | .extent, v => extent v
  | .resignAction, v => text v.name
  | .order, v => text v.name
  | .family, v => text v.name
  | .time, v => time v
  | .interval, v => interval v
  | .info, v => info v
  | .maybeText, v => .ofOption text v
  | .maybe s, v => .ofOption (value s) v
  | .list s, v => .array (v.map (value s))
  | .pair s t, v => .array [value s v.1, value t v.2]

/-- The value of a shape in a document. -/
def readValue : (s : Shape) → Json → Reading s.Value
  | .text, v => readText v
  | .blob, v => readHex v
  | .flag, v => readTruth v
  | .word, v => readWord v
  | .handle k, v => readHandle k v
  | .handles k, v => readHandles k v
  | .values k, v => readValues k v
  | .transportation, v => readTransportation v
  | .extent, v => readExtent v
  | .resignAction, v => do sound (ResignAction.ofCode (UInt8.ofNat (← readNumber v)))
  | .order, v => readOrder v
  | .family, v => readFamily v
  | .time, v => readTime v
  | .interval, v => readInterval v
  | .info, v => readInfo v
  | .maybeText, v => readOption readText v
  | .maybe s, v => readOption (readValue s) v
  | .list s, v => do (← readItems v).mapM (readValue s)
  | .pair s t, v => readPair (readValue s) (readValue t) v

/-- The members of the document of a record, one for each field. -/
def record : (l : Layout) → l.Record → List (String × Json)
  | [], _ => []
  | field :: rest, r => (field.1, value field.2 r.1) :: record rest r.2

/-- The record in the members of a document. -/
def readRecord : (l : Layout) → Json → Reading l.Record
  | [], _ => .ok ()
  | field :: rest, v => do
    let a ← readValue field.2 (v.member field.1)
    let r ← readRecord rest v
    return (a, r)

end Federate.Document
