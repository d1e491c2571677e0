/-
Bytes shown to a reader: as a list of hexadecimal pairs, or as a quoted literal
in which printable ASCII stands for itself.
-/
import Federate.Bytes
namespace Federate.Text

/-- Two lower-case hexadecimal digits. -/
def hexPair (b : UInt8) : String :=
  String.ofList [Nat.digitChar (b.toNat / 16), Nat.digitChar (b.toNat % 16)]

/-- The bytes as `[ab, 01]`. -/
def hexList (bs : Bytes) : String :=
  "[" ++ String.intercalate ", " (bs.map hexPair) ++ "]"

/-- One byte of a quoted literal. -/
def quotedByte (b : UInt8) : String :=
  if b = 0x0A then "\\n"
  else if b = 0x0D then "\\r"
  else if b = 0x09 then "\\t"
  else if b = 0x5C then "\\\\"
  else if b = 0x22 then "\\\""
  else if b = 0x00 then "\\0"
  else if 0x20 ≤ b ∧ b < 0x7F then String.singleton (Char.ofNat b.toNat)
  else "\\x" ++ hexPair b

/-- The bytes as a quoted literal with a leading `b`. -/
def quoted (bs : Bytes) : String :=
  "b\"" ++ String.join (bs.map quotedByte) ++ "\""

end Federate.Text
