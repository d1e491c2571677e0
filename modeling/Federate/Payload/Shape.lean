/-
Shapes of values in payloads, with a writer and a reader for each. A shape
fixes the type of its values (`Shape.Value`), so that a payload can be described
by its shapes alone. Logical times are read in the family that the federation
has settled on; before it has, they cannot be read.
-/
import Federate.Choice
import Federate.Handle.Region
import Federate.Handle.Transportation
import Federate.Time
namespace Federate

/-- How a message came: its order, its transportation, who produced it and at what time. -/
structure MessageInfo where
  order : MessageOrder
  transportation : Transportation
  producer : Handle .federate
  time : Option Time
  deriving DecidableEq

/-- The shape of a value in a payload. -/
inductive Shape where
  | text
  | blob
  | flag
  | word
  | handle (kind : Handle.Kind)
  | handles (kind : Handle.Kind)
  /-- Byte strings under handles. -/
  | values (kind : Handle.Kind)
  | transportation
  | extent
  | resignAction
  | order
  | family
  | time
  | interval
  | info
  /-- A text that may be missing, and is then written as an empty one that does not count. -/
  | maybeText
  /-- A value that may be missing. -/
  | maybe (s : Shape)
  | list (s : Shape)
  | pair (s t : Shape)
  deriving DecidableEq, Repr

namespace Shape

/-- The values of a shape. -/
@[reducible] def Value : Shape → Type
  | .text => String
  | .blob => Bytes
  | .flag => Bool
  | .word => UInt32
  | .handle k => Handle k
  | .handles k => Handle.Set k
  | .values k => Handle.Map k
  | .transportation => Transportation
  | .extent => Extent
  | .resignAction => ResignAction
  | .order => MessageOrder
  | .family => TimeFamily
  | .time => Time
  | .interval => Interval
  | .info => MessageInfo
  | .maybeText => Option String
  | .maybe s => Option s.Value
  | .list s => List s.Value
  | .pair s t => s.Value × t.Value

/-- Whether two values of a shape are the same. -/
def decEq : (s : Shape) → DecidableEq s.Value
  | .text => inferInstanceAs (DecidableEq String)
  | .blob => inferInstanceAs (DecidableEq Bytes)
  | .flag => inferInstanceAs (DecidableEq Bool)
  | .word => inferInstanceAs (DecidableEq UInt32)
  | .handle k => inferInstanceAs (DecidableEq (Handle k))
  | .handles k => inferInstanceAs (DecidableEq (Handle.Set k))
  | .values k => inferInstanceAs (DecidableEq (Handle.Map k))
  | .transportation => inferInstanceAs (DecidableEq Transportation)
  | .extent => inferInstanceAs (DecidableEq Extent)
  | .resignAction => inferInstanceAs (DecidableEq ResignAction)
  | .order => inferInstanceAs (DecidableEq MessageOrder)
  | .family => inferInstanceAs (DecidableEq TimeFamily)
  | .time => inferInstanceAs (DecidableEq Time)
  | .interval => inferInstanceAs (DecidableEq Interval)
  | .info => inferInstanceAs (DecidableEq MessageInfo)
  | .maybeText => inferInstanceAs (DecidableEq (Option String))
  | .maybe s => have := decEq s; inferInstanceAs (DecidableEq (Option s.Value))
  | .list s => have := decEq s; inferInstanceAs (DecidableEq (List s.Value))
  | .pair s t =>
    have := decEq s
    have := decEq t
    inferInstanceAs (DecidableEq (s.Value × t.Value))

instance (s : Shape) : DecidableEq s.Value := decEq s

/-- A presence flag, and the value if there is one. -/
def writeMaybe {α : Type} (value : α → Bytes) : Option α → Bytes
  | none => Bytes.flag false
  | some a => Bytes.flag true ++ value a

/-- The bytes of a value. -/
def write : (s : Shape) → s.Value → Bytes
  | .text, v => Bytes.text v
  | .blob, v => Bytes.blob v
  | .flag, v => Bytes.flag v
  | .word, v => Bytes.ofUInt32 v
  | .handle _, v => v.write
  | .handles _, v => v.write fun _ => []
  | .values _, v => v.write Bytes.blob
  | .transportation, v => v.write
  | .extent, v => v.write
  | .resignAction, v => [v.code]
  | .order, v => [v.code]
  | .family, v => Bytes.text v.name
  | .time, v => v.bytes
  | .interval, v => v.bytes
  | .info, v =>
    v.order.code :: v.transportation.write ++ v.producer.write ++ writeMaybe Time.bytes v.time
  | .maybeText, v => Bytes.flag v.isSome ++ Bytes.text (v.getD "")
  | .maybe s, v => writeMaybe (write s) v
  | .list s, v => Bytes.ofNat 4 v.length ++ v.flatMap (write s)
  | .pair s t, v => write s v.1 ++ write t v.2

/-- The family of times, which must be settled before times can be read. -/
def negotiated : Option TimeFamily → Reader TimeFamily
  | some f => pure f
  | none => Reader.fail
      (.couldNotDecode "logical time received before a time factory was negotiated")

/-- A presence flag, and the value if there is one. -/
def readMaybe {α : Type} (r : Reader α) : Reader (Option α) := do
  if ← Reader.flag then
    let a ← r
    pure (some a)
  else pure none

def readTime (f : Option TimeFamily) : Reader Time := do (← negotiated f).readTime

def readInfo (f : Option TimeFamily) : Reader MessageInfo := do
  let order ← MessageOrder.read
  let transportation ← Transportation.read
  let producer ← Handle.read .federate
  let time ← readMaybe (readTime f)
  pure { order, transportation, producer, time }

/-- Reads a value of a shape, its times in the settled family. -/
def read (f : Option TimeFamily) : (s : Shape) → Reader s.Value
  | .text => Reader.text
  | .blob => Reader.blob
  | .flag => Reader.flag
  | .word => Reader.word32
  | .handle k => Handle.read k
  | .handles k => Handle.Set.read k
  | .values k => Handle.Map.read k
  | .transportation => Transportation.read
  | .extent => Extent.read
  | .resignAction => ResignAction.read
  | .order => MessageOrder.read
  | .family => do Reader.lift (TimeFamily.ofName (← Reader.text))
  | .time => readTime f
  | .interval => do (← negotiated f).readInterval
  | .info => readInfo f
  | .maybeText => do
    let present ← Reader.flag
    let t ← Reader.text
    pure (if present then some t else none)
  | .maybe s => readMaybe (read f s)
  | .list s => Reader.counted (read f s)
  | .pair s t => do
    let a ← read f s
    let b ← read f t
    pure (a, b)

/-- Passes a value whose times and intervals are all of the family. -/
def expect (f : TimeFamily) : (s : Shape) → s.Value → Except Fault Unit
  | .time, v => v.expect f
  | .interval, v => v.expect f
  | .info, v => v.time.forM (·.expect f)
  | .maybe s, v => v.forM (expect f s)
  | .list s, v => v.forM (expect f s)
  | .pair s t, v => do
    expect f s v.1
    expect f t v.2
  | _, _ => .ok ()

end Shape

/-- The fields of a payload in their order, each with its name. -/
abbrev Layout := List (String × Shape)

namespace Layout

/-- Values for the fields of a layout. -/
@[reducible] def Record : Layout → Type
  | [] => Unit
  | field :: rest => field.2.Value × Record rest

/-- Whether two records of a layout are the same. -/
def decEq : (l : Layout) → DecidableEq l.Record
  | [] => inferInstanceAs (DecidableEq Unit)
  | field :: rest =>
    have := decEq rest
    inferInstanceAs (DecidableEq (field.2.Value × Record rest))

instance (l : Layout) : DecidableEq l.Record := decEq l

/-- The bytes of a record: those of its fields, one after another. -/
def write : (l : Layout) → l.Record → Bytes
  | [], _ => []
  | field :: rest, r => field.2.write r.1 ++ write rest r.2

def read (f : Option TimeFamily) : (l : Layout) → Reader l.Record
  | [] => pure ()
  | field :: rest => do
    let v ← field.2.read f
    let r ← read f rest
    pure (v, r)

/-- Passes a record whose times and intervals are all of the family. -/
def expect (f : TimeFamily) : (l : Layout) → l.Record → Except Fault Unit
  | [], _ => .ok ()
  | field :: rest, r => do
    field.2.expect f r.1
    expect f rest r.2

end Layout

end Federate
