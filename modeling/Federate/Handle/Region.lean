/-
Regions of the routing space: either registered with the federation under a
handle, or conveyed by their extents along dimensions. A conveyed region can be
looked at but has no handle to encode.
-/
import Federate.Handle.Table
namespace Federate

/-- A stretch of one dimension, both ends included. -/
structure Extent where
  lower : UInt64
  upper : UInt64
  lower_le_upper : lower ≤ upper
  deriving DecidableEq

namespace Extent

/-- The stretch between two bounds, the lower first. -/
def ofBounds (lower upper : UInt64) : Except Fault Extent :=
  if h : lower ≤ upper then .ok ⟨lower, upper, h⟩
  else .error (.known .invalidRangeBound s!"lower bound {lower} above upper bound {upper}")

def write (e : Extent) : Bytes := Bytes.ofUInt64 e.lower ++ Bytes.ofUInt64 e.upper

def read : Reader Extent := do
  let lower ← Reader.word64
  let upper ← Reader.word64
  match ofBounds lower upper with
  | .ok e => pure e
  | .error e => Reader.fail (.couldNotDecode e.message)

theorem ofBounds_bounds (e : Extent) : ofBounds e.lower e.upper = .ok e := by
  simp [ofBounds, e.lower_le_upper]

end Extent

/-- A region. -/
inductive Region where
  | registered (handle : Handle .region)
  | conveyed (extents : Handle.Table .dimension Extent)
  deriving DecidableEq

namespace Region

def isConveyed : Region → Bool
  | .registered _ => false
  | .conveyed _ => true

private def notEncodable : Fault := .unsupported "conveyed region handles cannot be encoded"

/-- How many bytes the region's handle has. -/
def encodedLength : Region → Except Fault Nat
  | .registered h => .ok h.bytes.length
  | .conveyed _ => .error notEncodable

/-- The region's handle written into a buffer from `offset` on. -/
def encodeAt (r : Region) (buffer : Bytes) (offset : Nat) : Except Fault Bytes :=
  match r with
  | .registered h => h.encodeAt buffer offset
  | .conveyed _ => .error notEncodable

/-- The handle of a region that has one. -/
def handle : Region → Except Fault (Handle .region)
  | .registered h => .ok h
  | .conveyed _ => .error
      (.known .invalidRegion "conveyed region is not registered with the federation")

end Region

/-- The extent of a conveyed region along a dimension. -/
def Handle.Table.extent (extents : Handle.Table .dimension Extent) (d : Handle .dimension) :
    Except Fault Extent :=
  match extents.get? d with
  | some e => .ok e
  | none => .error (.known .regionDoesNotContainSpecifiedDimension d.labelled)

end Federate
