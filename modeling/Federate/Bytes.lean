/-
Byte strings, and whole numbers written in them most significant byte first.
A number written in `w` bytes reads back as its remainder modulo the number of
such strings (`toNat_ofNat`), and `w` bytes read as a number are written back unchanged
(`ofNat_toNat`). A stretch of a byte string is overwritten only where it fits
whole (`overwrite?`), and then nothing outside the stretch moves.
-/
namespace Federate

/-- A string of octets. -/
abbrev Bytes := List UInt8

namespace Bytes

/-- How many strings of `width` bytes there are: the powers of 256. -/
def capacity : (width : Nat) → Nat
  | 0 => 1
  | w + 1 => 256 * capacity w

/-- The last `width` base-256 digits of `n`, most significant first. -/
def ofNat : (width : Nat) → (n : Nat) → Bytes
  | 0, _ => []
  | w + 1, n => UInt8.ofNat (n / capacity w) :: ofNat w n

/-- The number that a string of base-256 digits denotes. -/
def toNat : Bytes → Nat
  | [] => 0
  | b :: rest => b.toNat * capacity rest.length + toNat rest

theorem capacity_pos (w : Nat) : 0 < capacity w := by
  induction w with
  | zero => decide
  | succ w ih => rw [capacity]; omega

theorem capacity_add (v w : Nat) : capacity (v + w) = capacity v * capacity w := by
  induction v with
  | zero => simp [capacity]
  | succ v ih => rw [Nat.succ_add, capacity, capacity, ih, Nat.mul_assoc]

theorem capacity_two : capacity 2 = 0x10000 := rfl
theorem capacity_four : capacity 4 = 0x100000000 := rfl
theorem capacity_eight : capacity 8 = 0x10000000000000000 := rfl

@[simp] theorem length_ofNat (w n : Nat) : (ofNat w n).length = w := by
  induction w with
  | zero => rfl
  | succ w ih => simp [ofNat, ih]

theorem toNat_lt (bs : Bytes) : toNat bs < capacity bs.length := by
  induction bs with
  | nil => decide
  | cons b rest ih =>
    have hb : b.toNat ≤ 255 := by have := b.toNat_lt; omega
    have : b.toNat * capacity rest.length ≤ 255 * capacity rest.length :=
      Nat.mul_le_mul_right _ hb
    rw [toNat, List.length_cons, capacity]
    omega

theorem toNat_ofNat (w n : Nat) : toNat (ofNat w n) = n % capacity w := by
  induction w with
  | zero => simp [ofNat, toNat, capacity, Nat.mod_one]
  | succ w ih =>
    have hbyte : (UInt8.ofNat (n / capacity w)).toNat = n / capacity w % 256 := UInt8.toNat_ofNat'
    rw [ofNat, toNat, length_ofNat, ih, hbyte, capacity, Nat.mul_comm 256, Nat.mod_mul,
      Nat.add_comm, Nat.mul_comm (capacity w)]

theorem ofNat_mod (w n : Nat) (h : w ≤ v) : ofNat w (n % capacity v) = ofNat w n := by
  induction w with
  | zero => rfl
  | succ w ih =>
    obtain ⟨u, rfl⟩ : ∃ u, v = w + (u + 1) := ⟨v - w - 1, by omega⟩
    have hd : n % capacity (w + (u + 1)) / capacity w = n / capacity w % (256 * capacity u) := by
      rw [capacity_add, Nat.mod_mul_right_div_self, capacity]
    simp only [ofNat, ih (by omega), hd, List.cons.injEq, and_true]
    apply UInt8.toNat_inj.mp
    simp only [UInt8.toNat_ofNat']
    rw [Nat.mod_mul_right_mod]

theorem ofNat_toNat (bs : Bytes) : ofNat bs.length (toNat bs) = bs := by
  induction bs with
  | nil => rfl
  | cons b rest ih =>
    have hlt := toNat_lt rest
    have hdiv : (b.toNat * capacity rest.length + toNat rest) / capacity rest.length = b.toNat := by
      rw [Nat.mul_comm, Nat.mul_add_div (capacity_pos _), Nat.div_eq_of_lt hlt, Nat.add_zero]
    have hmod : (b.toNat * capacity rest.length + toNat rest) % capacity rest.length =
        toNat rest := by
      rw [Nat.mul_comm, Nat.mul_add_mod, Nat.mod_eq_of_lt hlt]
    simp only [List.length_cons, ofNat, toNat, hdiv]
    rw [← ofNat_mod _ _ (Nat.le_refl _), hmod, ih]
    simp

/-- Two, four and eight bytes of the fixed-width words. -/
def ofUInt16 (v : UInt16) : Bytes := ofNat 2 v.toNat
@[inherit_doc ofUInt16] def ofUInt32 (v : UInt32) : Bytes := ofNat 4 v.toNat
@[inherit_doc ofUInt16] def ofUInt64 (v : UInt64) : Bytes := ofNat 8 v.toNat

@[simp] theorem length_ofUInt16 (v : UInt16) : (ofUInt16 v).length = 2 := length_ofNat 2 _
@[simp] theorem length_ofUInt32 (v : UInt32) : (ofUInt32 v).length = 4 := length_ofNat 4 _
@[simp] theorem length_ofUInt64 (v : UInt64) : (ofUInt64 v).length = 8 := length_ofNat 8 _

theorem toNat_ofNat_of_lt {w n : Nat} (h : n < capacity w) : toNat (ofNat w n) = n := by
  rw [toNat_ofNat, Nat.mod_eq_of_lt h]

theorem toNat_ofUInt16 (v : UInt16) : toNat (ofUInt16 v) = v.toNat :=
  toNat_ofNat_of_lt v.toNat_lt

theorem toNat_ofUInt32 (v : UInt32) : toNat (ofUInt32 v) = v.toNat :=
  toNat_ofNat_of_lt v.toNat_lt

theorem toNat_ofUInt64 (v : UInt64) : toNat (ofUInt64 v) = v.toNat :=
  toNat_ofNat_of_lt v.toNat_lt

theorem ofUInt16_toNat {bs : Bytes} (h : bs.length = 2) :
    ofUInt16 (UInt16.ofNat bs.toNat) = bs := by
  have hlt : bs.toNat < capacity 2 := h ▸ bs.toNat_lt
  rw [ofUInt16, UInt16.toNat_ofNat_of_lt' hlt]
  simpa [h] using bs.ofNat_toNat

theorem ofUInt32_toNat {bs : Bytes} (h : bs.length = 4) :
    ofUInt32 (UInt32.ofNat bs.toNat) = bs := by
  have hlt : bs.toNat < capacity 4 := h ▸ bs.toNat_lt
  rw [ofUInt32, UInt32.toNat_ofNat_of_lt' hlt]
  simpa [h] using bs.ofNat_toNat

theorem ofUInt64_toNat {bs : Bytes} (h : bs.length = 8) :
    ofUInt64 (UInt64.ofNat bs.toNat) = bs := by
  have hlt : bs.toNat < capacity 8 := h ▸ bs.toNat_lt
  rw [ofUInt64, UInt64.toNat_ofNat_of_lt' hlt]
  simpa [h] using bs.ofNat_toNat

/-- `bs` with `patch` laid over it from `offset` on; `none` unless the patch ends within `bs`. -/
def overwrite? (bs : Bytes) (offset : Nat) (patch : Bytes) : Option Bytes :=
  if offset + patch.length ≤ bs.length then
    some (bs.take offset ++ patch ++ bs.drop (offset + patch.length))
  else none

/-- The `length` bytes of `bs` from `offset` on; `none` unless all of them are there. -/
def slice? (bs : Bytes) (offset length : Nat) : Option Bytes :=
  if offset + length ≤ bs.length then some ((bs.drop offset).take length) else none

/-- The bytes of `bs` from `offset` to its end; `none` when `offset` lies past the end. -/
def from? (bs : Bytes) (offset : Nat) : Option Bytes :=
  if offset ≤ bs.length then some (bs.drop offset) else none

theorem length_overwrite? {bs out patch : Bytes} {offset : Nat}
    (h : bs.overwrite? offset patch = some out) : out.length = bs.length := by
  simp only [overwrite?, Option.ite_none_right_eq_some, Option.some.injEq] at h
  obtain ⟨hle, rfl⟩ := h
  simp only [List.length_append, List.length_take, List.length_drop]
  omega

theorem slice?_overwrite? {bs out patch : Bytes} {offset : Nat}
    (h : bs.overwrite? offset patch = some out) : out.slice? offset patch.length = some patch := by
  have hlen := length_overwrite? h
  simp only [overwrite?, Option.ite_none_right_eq_some, Option.some.injEq] at h
  obtain ⟨hle, rfl⟩ := h
  have htake : (bs.take offset).length = offset := by rw [List.length_take]; omega
  simp only [slice?, hlen, hle, ↓reduceIte, Option.some.injEq]
  rw [List.append_assoc, List.drop_append_of_le_length (by omega),
    List.drop_eq_nil_of_le (by omega),
    List.nil_append, List.take_left]

end Bytes

end Federate
