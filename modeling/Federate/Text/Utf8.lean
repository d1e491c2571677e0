/-
Text as UTF-8 bytes. Every text is read back from its bytes (`decode_encode`),
and only the bytes of a text are read at all (`eq_encode_of_decode`). Where
bytes are no text, `locate` says how long the well-formed part is and how many
octets of the first bad sequence were acceptable.
-/
import Federate.Bytes
namespace Federate.Text

/-- The UTF-8 bytes of a text. -/
def encode (s : String) : Bytes := s.toByteArray.data.toList

/-- Why bytes are not UTF-8: the length of the well-formed part, and how many
octets of the sequence after it were acceptable, `none` if they end within it. -/
structure Utf8Flaw where
  index : Nat
  acceptable : Option Nat
  deriving DecidableEq, Repr

/-- What the first octet of a character outside ASCII announces: how many octets
follow, and the least and greatest that the next one may be. -/
def lead (b : UInt8) : Option (Nat × UInt8 × UInt8) :=
  if b < 0xC2 then none
  else if b ≤ 0xDF then some (1, 0x80, 0xBF)
  else if b = 0xE0 then some (2, 0xA0, 0xBF)
  else if b = 0xED then some (2, 0x80, 0x9F)
  else if b ≤ 0xEF then some (2, 0x80, 0xBF)
  else if b = 0xF0 then some (3, 0x90, 0xBF)
  else if b ≤ 0xF3 then some (3, 0x80, 0xBF)
  else if b = 0xF4 then some (3, 0x80, 0x8F)
  else none

/-- The first flaw of ill-formed bytes. `start` octets are known to be well formed;
`good` octets of the current character have been seen, `owed` are still to come,
and the next of them must lie between `lo` and `hi`. -/
def locate (start good owed : Nat) (lo hi : UInt8) : Bytes → Utf8Flaw
  | [] => ⟨start, none⟩
  | b :: rest =>
    if owed = 0 then
      if b < 0x80 then locate (start + 1) 0 0 lo hi rest
      else match lead b with
        | none => ⟨start, some 1⟩
        | some (n, lo', hi') => locate start 1 n lo' hi' rest
    else if lo ≤ b ∧ b ≤ hi then
      if owed = 1 then locate (start + good + 1) 0 0 0x80 0xBF rest
      else locate start (good + 1) (owed - 1) 0x80 0xBF rest
    else ⟨start, some good⟩

/-- The text whose UTF-8 bytes these are. -/
def decode (bs : Bytes) : Except Utf8Flaw String :=
  if h : (ByteArray.mk bs.toArray).validateUTF8 = true then
    .ok (String.ofByteArray ⟨bs.toArray⟩ (ByteArray.validateUTF8_eq_true_iff.mp h))
  else .error (locate 0 0 0 0x80 0xBF bs)

/-- The wording of a flaw. -/
def Utf8Flaw.message (e : Utf8Flaw) : String :=
  match e.acceptable with
  | some n => s!"invalid utf-8 sequence of {n} bytes from index {e.index}"
  | none => s!"incomplete utf-8 byte sequence from index {e.index}"

theorem decode_encode (s : String) : decode (encode s) = .ok s := by
  have hb : ByteArray.mk (encode s).toArray = s.toByteArray := by
    simp [encode]
  unfold decode
  rw [dif_pos (by rw [hb]; exact ByteArray.validateUTF8_eq_true_iff.mpr s.isValidUTF8)]
  exact congrArg Except.ok (String.toByteArray_inj.mp hb)

theorem eq_encode_of_decode {bs : Bytes} {s : String} (h : decode bs = .ok s) : bs = encode s := by
  unfold decode at h
  split at h
  · simp only [Except.ok.injEq] at h
    subst h
    simp [encode]
  · cases h

end Federate.Text
