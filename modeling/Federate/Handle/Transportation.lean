/-
The two transportation types, each a fixed handle of four bytes.
-/
import Federate.Reader
import Federate.Text.Quoted
namespace Federate

/-- How messages travel: surely, or as well as may be. -/
inductive Transportation where
  | reliable
  | bestEffort
  deriving DecidableEq, Repr

namespace Transportation

/-- The four bytes of the type's handle. -/
def bytes : Transportation → Bytes
  | .reliable => [0, 0, 0, 1]
  | .bestEffort => [0, 0, 0, 2]

/-- The standard name. -/
def name : Transportation → String
  | .reliable => "HLAreliable"
  | .bestEffort => "HLAbestEffort"

/-- The name in capitals, as in the interface's constants. -/
def constant : Transportation → String
  | .reliable => "HLA_RELIABLE"
  | .bestEffort => "HLA_BEST_EFFORT"

/-- The type that a standard name stands for. -/
def ofName (n : String) : Except Fault Transportation :=
  if n = name .reliable then .ok .reliable
  else if n = name .bestEffort then .ok .bestEffort
  else .error (.known .invalidTransportationName n)

/-- The type with these handle bytes. -/
def ofBytes (bs : Bytes) : Except Fault Transportation :=
  if bs = bytes .reliable then .ok .reliable
  else if bs = bytes .bestEffort then .ok .bestEffort
  else .error (.couldNotDecode ("unknown transportation type " ++ Text.hexList bs))

/-- The type whose handle fills a buffer from `offset` to the buffer's end. -/
def decodeAt (buffer : Bytes) (offset : Nat) : Except Fault Transportation :=
  match buffer.from? offset with
  | some bs => ofBytes bs
  | none => .error (.couldNotDecode s!"offset {offset} past end of buffer")

/-- The handle written into a buffer from `offset` on. -/
def encodeAt (t : Transportation) (buffer : Bytes) (offset : Nat) : Except Fault Bytes :=
  match buffer.overwrite? offset t.bytes with
  | some out => .ok out
  | none => .error (.couldNotEncode s!"transportation type needs 4 bytes at offset {offset}")

/-- The reliable type comes first. -/
def cmp : Transportation → Transportation → Ordering
  | .reliable, .bestEffort => .lt
  | .bestEffort, .reliable => .gt
  | _, _ => .eq

def write (t : Transportation) : Bytes := Bytes.blob t.bytes

def read : Reader Transportation := do Reader.lift (ofBytes (← Reader.blob))

theorem ofBytes_bytes (t : Transportation) : ofBytes t.bytes = .ok t := by cases t <;> rfl

theorem bytes_of_ofBytes {bs : Bytes} {t : Transportation} (h : ofBytes bs = .ok t) :
    t.bytes = bs := by
  unfold ofBytes at h
  split at h
  · rename_i hb; cases h; exact hb.symm
  · split at h
    · rename_i hb; cases h; exact hb.symm
    · cases h

end Transportation

end Federate
