/-
Times and intervals by their places. Each is one word of 64 bits, which is what it
is hashed by and, in eight bytes, what is written of it. A word has one place in
either family (`TimeFamily.place`), and values of a family are compared by their
places. Where the sign bit is clear, places are ordered like the bytes; behind a
set one, continuous values are ordered the other way round.
-/
import Federate.Time
import Federate.Proofs.Time.Words
namespace Federate

/-! ## Orders of byte strings -/

namespace Bytes

/-- The first bit is set. -/
def Signed : Bytes → Prop
  | [] => False
  | b :: _ => 0x80 ≤ b.toNat

instance : DecidablePred Signed
  | [] => .isFalse id
  | b :: _ => Nat.decLe 0x80 b.toNat

/-- The number that a byte string denotes in two's complement. -/
def toInt (bs : Bytes) : Int := Int.bmod bs.toNat (capacity bs.length)

/-- Byte strings of one length are ordered like the numbers that they denote. -/
theorem lt_iff_toNat_lt {as bs : Bytes} (h : as.length = bs.length) :
    as < bs ↔ as.toNat < bs.toNat := by
  induction as generalizing bs with
  | nil =>
    cases bs with
    | nil => simp
    | cons b bs => cases h
  | cons a as ih =>
    cases bs with
    | nil => cases h
    | cons b bs =>
      have length : as.length = bs.length := Nat.succ.inj h
      have low := toNat_lt as
      have low' := toNat_lt bs
      rw [List.cons_lt_cons_iff, ih length, toNat, toNat, length, UInt8.lt_iff_toNat_lt]
      rw [length] at low
      rcases Nat.lt_trichotomy a.toNat b.toNat with less | same | more
      · have whole : (a.toNat + 1) * capacity bs.length ≤ b.toNat * capacity bs.length :=
          Nat.mul_le_mul_right _ less
        rw [Nat.add_mul] at whole
        simp only [less, true_or, true_iff]
        omega
      · obtain rfl := UInt8.toNat_inj.mp same
        simp
      · have whole : (b.toNat + 1) * capacity bs.length ≤ a.toNat * capacity bs.length :=
          Nat.mul_le_mul_right _ more
        have differ : a ≠ b := by
          rintro rfl
          exact Nat.lt_irrefl _ more
        rw [Nat.add_mul] at whole
        simp only [Nat.lt_asymm more, differ, false_and, or_self, false_iff]
        omega

theorem ofUInt64_lt_iff {v w : UInt64} : ofUInt64 v < ofUInt64 w ↔ v.toNat < w.toNat := by
  rw [lt_iff_toNat_lt (by rw [length_ofUInt64, length_ofUInt64]), toNat_ofUInt64, toNat_ofUInt64]

theorem ofUInt64_inj {v w : UInt64} : ofUInt64 v = ofUInt64 w ↔ v = w := by
  constructor
  · intro h
    rw [← UInt64.toNat_inj, ← toNat_ofUInt64, h, toNat_ofUInt64]
  · rintro rfl
    rfl

theorem signed_ofUInt64_iff {v : UInt64} : (ofUInt64 v).Signed ↔ 0x8000000000000000 ≤ v.toNat := by
  have below := v.toNat_lt
  have first : (UInt8.ofNat (v.toNat / 0x100000000000000)).toNat =
      v.toNat / 0x100000000000000 % 0x100 := UInt8.toNat_ofNat'
  change 0x80 ≤ (UInt8.ofNat (v.toNat / 0x100000000000000)).toNat ↔ _
  rw [first]
  omega

theorem toInt_ofUInt64 (v : UInt64) : (ofUInt64 v).toInt = v.toInt64.toInt := by
  rw [toInt, toNat_ofUInt64, length_ofUInt64, capacity_eight]
  exact (BitVec.toInt_eq_toNat_bmod _).symm

end Bytes

/-! ## Places -/

namespace TimeFamily

/-- The place of a word within a family: of discrete values the signed number, of continuous
ones the rank in the total order. -/
def place (f : TimeFamily) (w : UInt64) : Int :=
  match f with
  | .discrete => w.toInt64.toInt
  | .continuous => Double.rank w

theorem place_discrete (w : UInt64) :
    (w.toNat < 0x8000000000000000 ∧ place .discrete w = w.toNat) ∨
    (0x8000000000000000 ≤ w.toNat ∧ place .discrete w = w.toNat - 0x10000000000000000) := by
  have signed : place .discrete w =
      if 2 * w.toNat < 0x10000000000000000 then (w.toNat : Int)
      else w.toNat - (0x10000000000000000 : Nat) :=
    BitVec.toInt_eq_toNat_cond _
  rw [signed]
  split <;> omega

theorem place_continuous (w : UInt64) :
    (w.toNat < 0x8000000000000000 ∧ place .continuous w = w.toNat + 0x8000000000000000) ∨
    (0x8000000000000000 ≤ w.toNat ∧ place .continuous w = 0xFFFFFFFFFFFFFFFF - w.toNat) := by
  have below := w.toNat_lt
  have ranked : place .continuous w = (Double.rank w : Int) := rfl
  rw [ranked, Double.rank]
  split <;> omega

theorem place_inj {f : TimeFamily} {v w : UInt64} : f.place v = f.place w ↔ v = w := by
  constructor
  · intro h
    apply UInt64.toNat_inj.mp
    have below := v.toNat_lt
    have below' := w.toNat_lt
    cases f with
    | discrete =>
      rcases place_discrete v with hv | hv <;> rcases place_discrete w with hw | hw <;> omega
    | continuous =>
      rcases place_continuous v with hv | hv <;> rcases place_continuous w with hw | hw <;> omega
  · rintro rfl
    rfl

theorem place_lt_of_clear {f : TimeFamily} {v w : UInt64} (hv : ¬ 0x8000000000000000 ≤ v.toNat)
    (hw : ¬ 0x8000000000000000 ≤ w.toNat) : f.place v < f.place w ↔ v.toNat < w.toNat := by
  cases f with
  | discrete =>
    obtain ⟨-, v'⟩ := (place_discrete v).resolve_right fun h => hv h.1
    obtain ⟨-, w'⟩ := (place_discrete w).resolve_right fun h => hw h.1
    omega
  | continuous =>
    obtain ⟨-, v'⟩ := (place_continuous v).resolve_right fun h => hv h.1
    obtain ⟨-, w'⟩ := (place_continuous w).resolve_right fun h => hw h.1
    omega

theorem place_lt_across {f : TimeFamily} {v w : UInt64} (hv : 0x8000000000000000 ≤ v.toNat)
    (hw : ¬ 0x8000000000000000 ≤ w.toNat) : f.place v < f.place w := by
  have below := v.toNat_lt
  cases f with
  | discrete =>
    obtain ⟨-, w'⟩ := (place_discrete w).resolve_right fun h => hw h.1
    rcases place_discrete v with v' | v' <;> omega
  | continuous =>
    obtain ⟨-, w'⟩ := (place_continuous w).resolve_right fun h => hw h.1
    rcases place_continuous v with v' | v' <;> omega

theorem place_lt_of_set {v w : UInt64} (hv : 0x8000000000000000 ≤ v.toNat)
    (hw : 0x8000000000000000 ≤ w.toNat) :
    place .continuous v < place .continuous w ↔ w.toNat < v.toNat := by
  rcases place_continuous v with v' | v' <;> rcases place_continuous w with w' | w' <;> omega

end TimeFamily

/-! ## Words -/

theorem compare_natCast (m n : Nat) : compare (m : Int) n = compare m n := by
  rcases Nat.lt_trichotomy m n with less | rfl | more
  · rw [Nat.compare_eq_lt.mpr less, Int.compare_eq_lt.mpr (by omega)]
  · rw [Nat.compare_eq_eq.mpr rfl, Int.compare_eq_eq.mpr rfl]
  · rw [Nat.compare_eq_gt.mpr more, Int.compare_eq_gt.mpr (by omega)]

namespace DiscreteTime

theorem place_hashed (t : DiscreteTime) : TimeFamily.discrete.place t.hashed = t.ticks :=
  Word.toInt_time t

theorem toNat_hashed (t : DiscreteTime) : t.hashed.toNat = t.ticks := by
  have value : (t.hashed.toNat : Int) = t.word.toInt := Word.toNat_toUInt64 (Word.toInt_nonneg t)
  rw [Word.toInt_time] at value
  exact Int.ofNat_inj.mp value

theorem bytes_eq (t : DiscreteTime) : t.bytes = Bytes.ofUInt64 t.hashed := by
  rw [bytes, Bytes.ofUInt64, toNat_hashed]

/-- No discrete time has the sign bit set. -/
theorem not_signed (t : DiscreteTime) : ¬ t.bytes.Signed := by
  rw [bytes_eq, Bytes.signed_ofUInt64_iff, toNat_hashed, Nat.not_le]
  exact t.ticks_lt

theorem hashed_inj {t u : DiscreteTime} : t.hashed = u.hashed ↔ t = u := by
  refine ⟨fun h => ext ?_, congrArg hashed⟩
  rw [← toNat_hashed, ← toNat_hashed, h]

theorem cmp_eq (t u : DiscreteTime) :
    t.cmp u =
      compare (TimeFamily.discrete.place t.hashed) (TimeFamily.discrete.place u.hashed) := by
  rw [place_hashed, place_hashed, compare_natCast, cmp]

end DiscreteTime

namespace DiscreteInterval

theorem place_hashed (i : DiscreteInterval) : TimeFamily.discrete.place i.hashed = i.ticks :=
  Word.toInt_interval i

theorem bytes_eq (i : DiscreteInterval) : i.bytes = Bytes.ofUInt64 i.hashed := by
  have value : i.hashed.toNat = (i.ticks % (0x10000000000000000 : Nat)).toNat :=
    BitVec.toNat_ofInt i.ticks
  rw [bytes, Bytes.ofUInt64, value]
  rfl

theorem hashed_inj {i j : DiscreteInterval} : i.hashed = j.hashed ↔ i = j := by
  refine ⟨fun h => ext ?_, congrArg hashed⟩
  rw [← place_hashed, ← place_hashed, h]

theorem cmp_eq (i j : DiscreteInterval) :
    i.cmp j =
      compare (TimeFamily.discrete.place i.hashed) (TimeFamily.discrete.place j.hashed) := by
  rw [place_hashed, place_hashed, cmp]

end DiscreteInterval

namespace Double

theorem cmp_eq (a b : UInt64) :
    cmp a b = compare (TimeFamily.continuous.place a) (TimeFamily.continuous.place b) :=
  (compare_natCast (rank a) (rank b)).symm

theorem cmp_eq_eq_iff {a b : UInt64} : cmp a b = .eq ↔ a = b := by
  rw [cmp, Nat.compare_eq_eq, rank_inj]

end Double

theorem ContinuousTime.bits_inj {t u : ContinuousTime} : t.bits = u.bits ↔ t = u :=
  ⟨congrArg mk, congrArg bits⟩

theorem ContinuousTime.cmp_eq_eq_iff {t u : ContinuousTime} : t.cmp u = .eq ↔ t = u := by
  rw [cmp, Double.cmp_eq_eq_iff, bits_inj]

theorem ContinuousInterval.bits_inj {i j : ContinuousInterval} : i.bits = j.bits ↔ i = j :=
  ⟨congrArg mk, congrArg bits⟩

theorem ContinuousInterval.cmp_eq_eq_iff {i j : ContinuousInterval} : i.cmp j = .eq ↔ i = j := by
  rw [cmp, Double.cmp_eq_eq_iff, bits_inj]

end Federate
