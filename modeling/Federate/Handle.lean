/-
Handles: opaque, non-empty byte strings that a coordinator assigns. A handle
carries its kind in its type, so that an attribute is never taken for a
parameter. Handles of one kind are ordered by their bytes.
-/
import Federate.Reader
import Federate.Text.Quoted
namespace Federate

/-- What a handle stands for. -/
inductive Handle.Kind where
  | federate
  | objectClass
  | interactionClass
  | objectInstance
  | attribute
  | parameter
  | dimension
  | messageRetraction
  | region
  deriving DecidableEq, Repr

/-- The name of a handle's type in the interface. -/
def Handle.Kind.typeName : Handle.Kind → String
  | .federate => "FederateHandle"
  | .objectClass => "ObjectClassHandle"
  | .interactionClass => "InteractionClassHandle"
  | .objectInstance => "ObjectInstanceHandle"
  | .attribute => "AttributeHandle"
  | .parameter => "ParameterHandle"
  | .dimension => "DimensionHandle"
  | .messageRetraction => "MessageRetractionHandle"
  | .region => "RegisteredRegionHandle"

/-- A handle of a kind. -/
structure Handle (k : Handle.Kind) where
  bytes : Bytes
  ne_nil : bytes ≠ []
  deriving DecidableEq

namespace Handle

variable {k : Handle.Kind}

@[ext] theorem ext {a b : Handle k} (h : a.bytes = b.bytes) : a = b := by
  cases a; cases b; simp_all

/-- The handle with these bytes; no bytes are no handle. -/
def ofBytes (k : Handle.Kind) (bs : Bytes) : Except Fault (Handle k) :=
  if h : bs = [] then .error (.couldNotDecode ("empty " ++ k.typeName)) else .ok ⟨bs, h⟩

/-- A four-byte handle that holds a number. -/
def ofUInt32 (n : UInt32) : Handle k := ⟨Bytes.ofUInt32 n, by simp [Bytes.ofUInt32, Bytes.ofNat]⟩

/-- An eight-byte handle that holds a number. -/
def ofUInt64 (n : UInt64) : Handle k := ⟨Bytes.ofUInt64 n, by simp [Bytes.ofUInt64, Bytes.ofNat]⟩

/-- The handle in a buffer from `offset` to the buffer's end. -/
def decodeAt (k : Handle.Kind) (buffer : Bytes) (offset : Nat) : Except Fault (Handle k) :=
  match buffer.from? offset with
  | some bs => ofBytes k bs
  | none => .error (.couldNotDecode
      (k.typeName ++ s!": offset {offset} past end of {buffer.length}-byte buffer"))

/-- The handle written into a buffer from `offset` on. -/
def encodeAt (h : Handle k) (buffer : Bytes) (offset : Nat) : Except Fault Bytes :=
  match buffer.overwrite? offset h.bytes with
  | some out => .ok out
  | none => .error (.couldNotEncode (k.typeName ++
      s!" needs {h.bytes.length} bytes at offset {offset}, buffer holds {buffer.length}"))

/-- A handle in words: a signed number if it has four or eight bytes, else the bytes. -/
def text (h : Handle k) : String :=
  let n := h.bytes.toNat
  if h.bytes.length = 4 then toString (Int.bmod n 0x100000000)
  else if h.bytes.length = 8 then toString (Int.bmod n 0x10000000000000000)
  else Text.hexList h.bytes

/-- A handle in words, with the name of its type. -/
def labelled (h : Handle k) : String := k.typeName ++ "(" ++ h.text ++ ")"

/-- Handles are ordered by their bytes, as words are in a dictionary. -/
instance : LT (Handle k) := ⟨fun a b => a.bytes < b.bytes⟩

instance : DecidableRel (α := Handle k) (· < ·) :=
  fun a b => inferInstanceAs (Decidable (a.bytes < b.bytes))

/-- The order of two handles. -/
def cmp (a b : Handle k) : Ordering :=
  if a < b then .lt else if a = b then .eq else .gt

theorem lt_irrefl (a : Handle k) : ¬ a < a := List.lt_irrefl a.bytes

theorem lt_trans {a b c : Handle k} (hab : a < b) (hbc : b < c) : a < c :=
  List.lt_trans hab hbc

theorem lt_of_not_lt {a b : Handle k} (h : ¬ a < b) (hne : a ≠ b) : b < a := by
  have hle : b.bytes ≤ a.bytes := h
  rcases List.le_iff_lt_or_eq.mp hle with hlt | heq
  · exact hlt
  · exact absurd (ext heq.symm) hne

/-- A handle on the wire: its bytes after their number. -/
def write (h : Handle k) : Bytes := Bytes.blob h.bytes

def read (k : Handle.Kind) : Reader (Handle k) := do Reader.lift (ofBytes k (← Reader.blob))

end Handle

end Federate
