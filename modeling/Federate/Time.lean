/-
Logical times and intervals of either family. A value carries its family, so
that combining values of different families is refused and never reinterpreted.
Every value is eight bytes on the wire; which family they belong to is settled
when a federate joins.
-/
import Federate.Reader
import Federate.Time.Discrete
import Federate.Time.Continuous
namespace Federate

/-- The two families of logical time. -/
inductive TimeFamily where
  | discrete
  | continuous
  deriving DecidableEq, Repr

/-- A logical time. -/
inductive Time where
  | discrete (t : DiscreteTime)
  | continuous (t : ContinuousTime)
  deriving DecidableEq

/-- A logical time interval. -/
inductive Interval where
  | discrete (i : DiscreteInterval)
  | continuous (i : ContinuousInterval)
  deriving DecidableEq

namespace Time

def family : Time → TimeFamily
  | .discrete _ => .discrete
  | .continuous _ => .continuous

def text : Time → String
  | .discrete t => t.text
  | .continuous t => t.text

def bytes : Time → Bytes
  | .discrete t => t.bytes
  | .continuous t => t.bytes

end Time

namespace Interval

def family : Interval → TimeFamily
  | .discrete _ => .discrete
  | .continuous _ => .continuous

def text : Interval → String
  | .discrete i => i.text
  | .continuous i => i.text

def bytes : Interval → Bytes
  | .discrete i => i.bytes
  | .continuous i => i.bytes

end Interval

namespace TimeFamily

/-- The name under which a family is negotiated. -/
def name : TimeFamily → String
  | .discrete => "HLAinteger64Time"
  | .continuous => "HLAfloat64Time"

/-- The family that a name stands for. -/
def ofName (n : String) : Except Fault TimeFamily :=
  if n = name .discrete then .ok .discrete
  else if n = name .continuous then .ok .continuous
  else .error (.known .couldNotCreateLogicalTimeFactory
    ("unknown logical time factory '" ++ n ++ "'"))

def initial : TimeFamily → Time
  | .discrete => .discrete .initial
  | .continuous => .continuous .initial

def final : TimeFamily → Time
  | .discrete => .discrete .final
  | .continuous => .continuous .final

def zero : TimeFamily → Interval
  | .discrete => .discrete .zero
  | .continuous => .continuous .zero

def epsilon : TimeFamily → Interval
  | .discrete => .discrete .epsilon
  | .continuous => .continuous .epsilon

theorem ofName_name (f : TimeFamily) : ofName f.name = .ok f := by cases f <;> simp [ofName, name]

/-- The time of eight bytes. -/
def timeOfBytes (f : TimeFamily) (bs : Bytes) : Except Fault Time :=
  match f with
  | .discrete => (DiscreteTime.ofBytes bs).map .discrete
  | .continuous => .ok (.continuous (.ofBytes bs))

/-- The interval of eight bytes. -/
def intervalOfBytes (f : TimeFamily) (bs : Bytes) : Interval :=
  match f with
  | .discrete => .discrete (.ofBytes bs)
  | .continuous => .continuous (.ofBytes bs)

theorem timeOfBytes_bytes (t : Time) : t.family.timeOfBytes t.bytes = .ok t := by
  cases t with
  | discrete t =>
    change (DiscreteTime.ofBytes t.bytes).map Time.discrete = .ok (.discrete t)
    rw [t.ofBytes_bytes]
    rfl
  | continuous t => exact congrArg (Except.ok ∘ Time.continuous) t.ofBytes_bytes

theorem intervalOfBytes_bytes (i : Interval) : i.family.intervalOfBytes i.bytes = i := by
  cases i with
  | discrete i => exact congrArg Interval.discrete i.ofBytes_bytes
  | continuous i => exact congrArg Interval.continuous i.ofBytes_bytes

theorem family_of_timeOfBytes {f : TimeFamily} {bs : Bytes} {t : Time}
    (h : f.timeOfBytes bs = .ok t) : t.family = f := by
  cases f with
  | discrete =>
    unfold timeOfBytes at h
    generalize DiscreteTime.ofBytes bs = r at h
    cases r with
    | ok d => cases h; rfl
    | error e => cases h
  | continuous => cases h; rfl

theorem family_intervalOfBytes (f : TimeFamily) (bs : Bytes) :
    (f.intervalOfBytes bs).family = f := by
  cases f <;> rfl

def readTime (f : TimeFamily) : Reader Time := do
  Reader.lift (f.timeOfBytes (← Reader.take 8))

def readInterval (f : TimeFamily) : Reader Interval := return f.intervalOfBytes (← Reader.take 8)

private def eightAt (buffer : Bytes) (offset : Nat) : Except Fault Bytes :=
  match buffer.slice? offset 8 with
  | some bs => .ok bs
  | none => .error (.couldNotDecode
      s!"need 8 bytes at offset {offset}, buffer holds {buffer.length}")

/-- The time in a buffer at an offset. -/
def decodeTimeAt (f : TimeFamily) (buffer : Bytes) (offset : Nat) : Except Fault Time := do
  f.timeOfBytes (← eightAt buffer offset)

/-- The interval in a buffer at an offset. -/
def decodeIntervalAt (f : TimeFamily) (buffer : Bytes) (offset : Nat) : Except Fault Interval := do
  return f.intervalOfBytes (← eightAt buffer offset)

theorem decodeTimeAt_of_slice? {buffer bs : Bytes} {offset : Nat}
    (h : buffer.slice? offset 8 = some bs) (f : TimeFamily) :
    f.decodeTimeAt buffer offset = f.timeOfBytes bs := by
  unfold decodeTimeAt eightAt
  rw [h]
  rfl

theorem decodeIntervalAt_of_slice? {buffer bs : Bytes} {offset : Nat}
    (h : buffer.slice? offset 8 = some bs) (f : TimeFamily) :
    f.decodeIntervalAt buffer offset = .ok (f.intervalOfBytes bs) := by
  unfold decodeIntervalAt eightAt
  rw [h]
  rfl

end TimeFamily

/-- Eight bytes laid into a buffer at an offset. -/
private def eightInto (bs buffer : Bytes) (offset : Nat) : Except Fault Bytes :=
  match buffer.overwrite? offset bs with
  | some out => .ok out
  | none => .error (.couldNotEncode
      s!"need 8 bytes at offset {offset}, buffer holds {buffer.length}")

namespace Interval

def isZero : Interval → Bool
  | .discrete i => i.ticks == 0
  | .continuous i => i.isZero

def isEpsilon : Interval → Bool
  | .discrete i => i.ticks == 1
  | .continuous i => i.bits == 1

private def mixed {α : Type} (a b : String) : Except Fault α :=
  .error (.known .invalidLogicalTimeInterval ("cannot combine " ++ a ++ " with " ++ b))

def add : Interval → Interval → Except Fault Interval
  | .discrete a, .discrete b => (a.add b).map .discrete
  | .continuous a, .continuous b => (a.add b).map .continuous
  | a, b => mixed a.text b.text

def subtract : Interval → Interval → Except Fault Interval
  | .discrete a, .discrete b => (a.subtract b).map .discrete
  | .continuous a, .continuous b => (a.subtract b).map .continuous
  | a, b => mixed a.text b.text

/-- The order within a family. -/
def cmp : Interval → Interval → Except Fault Ordering
  | .discrete a, .discrete b => .ok (a.cmp b)
  | .continuous a, .continuous b => .ok (a.cmp b)
  | a, b => mixed a.text b.text

/-- Whether two intervals are taken as equal: continuous ones by the total order. -/
def same : Interval → Interval → Bool
  | .discrete a, .discrete b => a == b
  | .continuous a, .continuous b => a.cmp b == .eq
  | _, _ => false

/-- What an interval is hashed by. -/
def hashed : Interval → TimeFamily × UInt64
  | .discrete i => (.discrete, i.hashed)
  | .continuous i => (.continuous, i.bits)

/-- The interval written into a buffer from `offset` on. -/
def encodeAt (i : Interval) (buffer : Bytes) (offset : Nat) : Except Fault Bytes :=
  eightInto i.bytes buffer offset

theorem encodeAt_eq (i : Interval) (buffer : Bytes) (offset : Nat) :
    i.encodeAt buffer offset = match buffer.overwrite? offset i.bytes with
      | some out => .ok out
      | none => .error (.couldNotEncode
          s!"need 8 bytes at offset {offset}, buffer holds {buffer.length}") := rfl

/-- Passes values of the family. -/
def expect (f : TimeFamily) (i : Interval) : Except Fault Unit :=
  if i.family = f then .ok ()
  else .error (.known .invalidLogicalTimeInterval
    (i.text ++ " is not a " ++ f.name ++ " interval"))

end Interval

namespace Time

def isInitial : Time → Bool
  | .discrete t => t == .initial
  | .continuous t => t.isInitial

def isFinal : Time → Bool
  | .discrete t => t == .final
  | .continuous t => t == .final

private def mixed {α : Type} (a b : String) : Except Fault α :=
  .error (.known .invalidLogicalTime ("cannot combine " ++ a ++ " with " ++ b))

def add : Time → Interval → Except Fault Time
  | .discrete t, .discrete i => (t.add i).map .discrete
  | .continuous t, .continuous i => (t.add i).map .continuous
  | t, i => mixed t.text i.text

def subtract : Time → Interval → Except Fault Time
  | .discrete t, .discrete i => (t.subtract i).map .discrete
  | .continuous t, .continuous i => (t.subtract i).map .continuous
  | t, i => mixed t.text i.text

/-- How far two times lie apart. -/
def distance : Time → Time → Except Fault Interval
  | .discrete a, .discrete b => .ok (.discrete (a.distance b))
  | .continuous a, .continuous b => .ok (.continuous (a.distance b))
  | a, b => mixed a.text b.text

/-- The order within a family. -/
def cmp : Time → Time → Except Fault Ordering
  | .discrete a, .discrete b => .ok (a.cmp b)
  | .continuous a, .continuous b => .ok (a.cmp b)
  | a, b => mixed a.text b.text

/-- Whether two times are taken as equal: continuous ones by the total order. -/
def same : Time → Time → Bool
  | .discrete a, .discrete b => a == b
  | .continuous a, .continuous b => a.cmp b == .eq
  | _, _ => false

/-- What a time is hashed by. -/
def hashed : Time → TimeFamily × UInt64
  | .discrete t => (.discrete, t.hashed)
  | .continuous t => (.continuous, t.bits)

/-- The time written into a buffer from `offset` on. -/
def encodeAt (t : Time) (buffer : Bytes) (offset : Nat) : Except Fault Bytes :=
  eightInto t.bytes buffer offset

theorem encodeAt_eq (t : Time) (buffer : Bytes) (offset : Nat) :
    t.encodeAt buffer offset = match buffer.overwrite? offset t.bytes with
      | some out => .ok out
      | none => .error (.couldNotEncode
          s!"need 8 bytes at offset {offset}, buffer holds {buffer.length}") := rfl

/-- Passes values of the family. -/
def expect (f : TimeFamily) (t : Time) : Except Fault Unit :=
  if t.family = f then .ok ()
  else .error (.known .invalidLogicalTime (t.text ++ " is not a " ++ f.name ++ " value"))

end Time

end Federate
