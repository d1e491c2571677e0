/-
Continuous logical time: doubles, kept as their bit patterns. Times and
intervals are equal exactly when their bits are, and are ordered by the total
order of IEEE 754, in which every pattern has a place (`rank`). A sum that
rounding would leave where it was moves by one step of the grid of doubles
instead; a sum that leaves the finite doubles is refused.
-/
import Federate.Bytes
import Federate.Fault
import Federate.Decimal.Shortest
namespace Federate

/-- A point of continuous time, by the bits of its double. -/
structure ContinuousTime where
  bits : UInt64
  deriving DecidableEq, Repr

/-- A span of continuous time, by the bits of its double. -/
structure ContinuousInterval where
  bits : UInt64
  deriving DecidableEq, Repr

namespace Double

/-- The largest finite double. -/
def largest : UInt64 := 0x7FEFFFFFFFFFFFFF

/-- The place of a bit pattern in the total order: patterns with the sign bit set come
first, in descending order of their bits, then the others, ascending. -/
def rank (bits : UInt64) : Nat :=
  if bits.toNat < 0x8000000000000000 then 0x8000000000000000 + bits.toNat
  else 0x10000000000000000 - 1 - bits.toNat

/-- The total order of bit patterns. -/
def cmp (a b : UInt64) : Ordering := compare (rank a) (rank b)

theorem rank_inj {a b : UInt64} : rank a = rank b ↔ a = b := by
  constructor
  · intro h
    have ha := a.toNat_lt
    have hb := b.toNat_lt
    apply UInt64.toNat_inj.mp
    unfold rank at h
    split at h <;> split at h <;> omega
  · rintro rfl
    rfl

/-- The distance from a double to the next one of larger magnitude. -/
def gap (x : Float) : Float :=
  let a := x.abs
  if a.isNaN || a.isInf then a
  else if a.toBits = largest then a - Float.ofBits (largest - 1)
  else Float.ofBits (a.toBits + 1) - a

private def overflow (operation : String) : Fault :=
  .known .illegalTimeArithmetic ("calculation overflow in " ++ operation)

/-- `base + delta`, moved by one gap where rounding would swallow a non-zero `delta`. -/
def step (base delta : Float) (operation : String) : Except Fault UInt64 :=
  let sum := base + delta
  if sum.isInf then .error (overflow operation)
  else if sum.toBits = base.toBits && delta != 0 then
    let moved := if delta > 0 then base + gap base else base - gap base
    if moved.isInf then .error (overflow operation) else .ok moved.toBits
  else .ok sum.toBits

end Double

namespace ContinuousInterval

def value (i : ContinuousInterval) : Float := Float.ofBits i.bits

def zero : ContinuousInterval := ⟨0⟩

/-- The least positive interval. -/
def epsilon : ContinuousInterval := ⟨1⟩

/-- Both zeros are zero. -/
def isZero (i : ContinuousInterval) : Bool := i.bits.toNat % 0x8000000000000000 == 0

def add (a b : ContinuousInterval) : Except Fault ContinuousInterval :=
  (Double.step a.value b.value "add").map (⟨·⟩)

def subtract (a b : ContinuousInterval) : Except Fault ContinuousInterval :=
  (Double.step a.value (-b.value) "subtract").map (⟨·⟩)

def cmp (a b : ContinuousInterval) : Ordering := Double.cmp a.bits b.bits

def text (i : ContinuousInterval) : String := "HLAfloat64Interval(" ++ Decimal.text i.bits ++ ")"

def bytes (i : ContinuousInterval) : Bytes := Bytes.ofUInt64 i.bits

def ofBytes (bs : Bytes) : ContinuousInterval := ⟨UInt64.ofNat bs.toNat⟩

theorem ofBytes_bytes (i : ContinuousInterval) : ofBytes i.bytes = i := by
  rw [ofBytes, bytes, Bytes.toNat_ofUInt64, UInt64.ofNat_toNat]

end ContinuousInterval

namespace ContinuousTime

def value (t : ContinuousTime) : Float := Float.ofBits t.bits

def initial : ContinuousTime := ⟨0⟩
def final : ContinuousTime := ⟨Double.largest⟩

/-- Both zeros are the initial time. -/
def isInitial (t : ContinuousTime) : Bool := t.bits.toNat % 0x8000000000000000 == 0

def add (t : ContinuousTime) (i : ContinuousInterval) : Except Fault ContinuousTime :=
  (Double.step t.value i.value "add").map (⟨·⟩)

def subtract (t : ContinuousTime) (i : ContinuousInterval) : Except Fault ContinuousTime :=
  (Double.step t.value (-i.value) "subtract").map (⟨·⟩)

/-- How far two times lie apart. -/
def distance (a b : ContinuousTime) : ContinuousInterval :=
  ⟨(a.value - b.value).abs.toBits⟩

def cmp (a b : ContinuousTime) : Ordering := Double.cmp a.bits b.bits

/-- The final time is written as infinity. -/
def text (t : ContinuousTime) : String :=
  if t = final then "HLAfloat64Time(INF)" else "HLAfloat64Time(" ++ Decimal.text t.bits ++ ")"

def bytes (t : ContinuousTime) : Bytes := Bytes.ofUInt64 t.bits

def ofBytes (bs : Bytes) : ContinuousTime := ⟨UInt64.ofNat bs.toNat⟩

theorem ofBytes_bytes (t : ContinuousTime) : ofBytes t.bytes = t := by
  rw [ofBytes, bytes, Bytes.toNat_ofUInt64, UInt64.ofNat_toNat]

end ContinuousTime

end Federate
