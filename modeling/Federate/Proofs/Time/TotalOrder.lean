/-
The total order of doubles, against what IEEE 754 says of it. Numbers stand in
their numeric order, with the negative zero before the other one; values that
are no numbers stand before all numbers or behind them, as their sign says, and
among themselves by their bits (`TotalOrder`). The order of the ranks is this
order (`totalOrder_iff`).

Which number a bit pattern stands for is told from its sign and the bits behind
it: as numbers, patterns are ordered like these bits taken with the sign
(`level`). This is shown of the values that patterns are unpacked to
(`stands_unpack`), which are also the values of the doubles (`unpack_ofBits`).
-/
import Federate.Time.Continuous
import Mathlib
namespace Federate.Double

open Float.Model (UnpackedFloat Format)
open Float.Model.UnpackedFloat

/-! ## What a pattern stands for -/

/-- The sign bit is set. -/
def Negative (bits : UInt64) : Prop := 0x8000000000000000 ≤ bits.toNat

instance (bits : UInt64) : Decidable (Negative bits) := Nat.decLe _ _

def sign (bits : UInt64) : Sign := if Negative bits then .negative else .positive

/-- The bits behind the sign. -/
def magnitude (bits : UInt64) : Nat := bits.toNat % 0x8000000000000000

/-- The bits behind the sign, taken with the sign. -/
def level (bits : UInt64) : Int := (sign bits).apply (magnitude bits)

/-- The mantissas and exponents of finite numbers: only those of the least exponent may have
fewer than 53 places. -/
structure Canonical (m : Nat) (e : Int) : Prop where
  pos : 0 < m
  lt : m < 0x20000000000000
  le_exponent : -1074 ≤ e
  exponent_le : e ≤ 971
  normal : e = -1074 ∨ 0x10000000000000 ≤ m

/-- The values that patterns stand for, and how the bits behind the sign tell them. -/
inductive Stands (bits : UInt64) : UnpackedFloat → Prop
  | infinity : magnitude bits = 0x7FF0000000000000 → Stands bits (.infinity (sign bits))
  | notANumber : 0x7FF0000000000000 < magnitude bits → Stands bits .notANumber
  | zero : magnitude bits = 0 → Stands bits (.zero (sign bits))
  | finite {m : Nat} {e : Int} (canonical : Canonical m e) :
      (magnitude bits : Int) = (e + 1074) * 0x10000000000000 + m →
      Stands bits (.finite (sign bits) m e canonical.pos)

theorem toNat_unpackMantissa (bits : UInt64) :
    (@unpackMantissa .binary64 bits.toBitVec).toNat = bits.toNat % 0x10000000000000 := by
  rw [unpackMantissa, BitVec.toNat_cast, BitVec.extractLsb_toNat]
  rfl

theorem toNat_unpackExponent (bits : UInt64) :
    (@unpackExponent .binary64 bits.toBitVec).toNat =
      bits.toNat / 0x10000000000000 % 0x800 := by
  rw [unpackExponent, BitVec.toNat_cast, BitVec.extractLsb_toNat, Nat.shiftRight_eq_div_pow]
  rfl

theorem toNat_unpackSign (bits : UInt64) :
    (@unpackSign .binary64 bits.toBitVec).toNat = bits.toNat / 0x8000000000000000 := by
  have below := bits.toNat_lt
  rw [unpackSign, BitVec.toNat_cast, BitVec.extractLsb_toNat, Nat.shiftRight_eq_div_pow]
  change bits.toNat / 0x8000000000000000 % 2 = _
  omega

theorem ofBitVec_unpackSign (bits : UInt64) :
    Sign.ofBitVec (@unpackSign .binary64 bits.toBitVec) = sign bits := by
  have value := toNat_unpackSign bits
  have below := bits.toNat_lt
  by_cases h : Negative bits
  · have set : @unpackSign .binary64 bits.toBitVec ≠ 0#1 := by
      intro heq
      rw [heq] at value
      unfold Negative at h
      change 0 = _ at value
      omega
    rw [Sign.ofBitVec, if_neg set, sign, if_pos h]
  · have clear : @unpackSign .binary64 bits.toBitVec = 0#1 := by
      apply BitVec.eq_of_toNat_eq
      rw [value]
      unfold Negative at h
      change _ = 0
      omega
    rw [Sign.ofBitVec, if_pos clear, sign, if_neg h]

/-- The first place of a mantissa is not written. -/
theorem toNat_implicit (m : BitVec 52) : (1#1 ++ m).toNat = 0x10000000000000 + m.toNat := by
  rw [BitVec.toNat_append, ← Nat.shiftLeft_add_eq_or_of_lt m.isLt]
  rfl

theorem stands_unpack (bits : UInt64) : Stands bits (unpack .binary64 bits.toBitVec) := by
  have mantissa := toNat_unpackMantissa bits
  have exponent := toNat_unpackExponent bits
  have whole : magnitude bits = bits.toNat / 0x10000000000000 % 0x800 * 0x10000000000000 +
      bits.toNat % 0x10000000000000 := by
    unfold magnitude
    omega
  have mantissa_lt : (@unpackMantissa .binary64 bits.toBitVec).toNat < 0x10000000000000 :=
    BitVec.isLt _
  have exponent_lt : (@unpackExponent .binary64 bits.toBitVec).toNat < 0x800 :=
    BitVec.isLt _
  rw [← mantissa, ← exponent] at whole
  unfold unpack
  simp only [ofBitVec_unpackSign]
  split
  · next top =>
    have ones : (@unpackExponent .binary64 bits.toBitVec).toNat = 0x7FF :=
      congrArg BitVec.toNat top
    split
    · next none =>
      have zero := congrArg BitVec.toNat none
      change _ = 0 at zero
      exact .infinity (by omega)
    · next some =>
      have nonzero : (@unpackMantissa .binary64 bits.toBitVec).toNat ≠ 0 :=
        fun h => some (BitVec.eq_of_toNat_eq h)
      exact .notANumber (by omega)
  · next top =>
    have not_ones : (@unpackExponent .binary64 bits.toBitVec).toNat ≠ 0x7FF :=
      fun h => top (BitVec.eq_of_toNat_eq h)
    split
    · next bottom =>
      have zeros : (@unpackExponent .binary64 bits.toBitVec).toNat = 0 :=
        congrArg BitVec.toNat bottom
      split
      · next none =>
        have zero := congrArg BitVec.toNat none
        change _ = 0 at zero
        exact .zero (by omega)
      · next some =>
        have nonzero : (@unpackMantissa .binary64 bits.toBitVec).toNat ≠ 0 :=
          fun h => some (BitVec.eq_of_toNat_eq h)
        rw [bottom]
        exact Stands.finite (e := -1074) ⟨by omega, by omega, by omega, by omega, .inl rfl⟩
          (by omega)
    · next bottom =>
      have not_zeros : (@unpackExponent .binary64 bits.toBitVec).toNat ≠ 0 :=
        fun h => bottom (BitVec.eq_of_toNat_eq h)
      have implicit := toNat_implicit (@unpackMantissa .binary64 bits.toBitVec)
      have canonical : Canonical (1#1 ++ @unpackMantissa .binary64 bits.toBitVec).toNat
          ((@unpackExponent .binary64 bits.toBitVec).toNat - (1023 + 52)) := by
        rw [implicit]
        exact ⟨by omega, by omega, by omega, by omega, .inr (by omega)⟩
      refine Stands.finite canonical ?_
      rw [implicit]
      omega

/-- A double is the pattern unpacked, in which nothing is lost but which of the patterns it was
that stand for no number. -/
theorem unpack_ofBits (bits : UInt64) :
    (Float.ofBits bits).toModel.unpack = unpack .binary64 bits.toBitVec := by
  change unpack .binary64 (pack .binary64 (unpack .binary64 bits.toBitVec)) = _
  rw [pack_unpack]
  split
  · next nan =>
    rw [isNaNBits, decide_eq_true_eq] at nan
    rw [unpack_packedNaN, unpack, if_pos nan.1, if_neg nan.2]
  · rfl

/-! ## Numbers -/

theorem apply_negative (n : Nat) : Sign.negative.apply n = -n := rfl

theorem apply_positive (n : Nat) : Sign.positive.apply n = n := rfl

theorem apply_bounds (s : Sign) (n : Nat) : -n ≤ s.apply n ∧ s.apply n ≤ n := by
  cases s with
  | negative => rw [apply_negative]; omega
  | positive => rw [apply_positive]; omega

theorem compare_neg (i j : Int) : compare (-i) (-j) = compare j i := by
  rcases Int.lt_trichotomy j i with less | rfl | more
  · rw [Int.compare_eq_lt.mpr less, Int.compare_eq_lt.mpr (by omega)]
  · rw [Int.compare_eq_eq.mpr rfl, Int.compare_eq_eq.mpr rfl]
  · rw [Int.compare_eq_gt.mpr more, Int.compare_eq_gt.mpr (by omega)]

/-- Finite numbers are compared by the exponent first and then by the mantissa, and this is the
order of the bits that tell the two. -/
theorem compare_finite {m m' : Nat} {e e' : Int} (h : Canonical m e) (h' : Canonical m' e') :
    (compare e e').then (compare m m') =
      compare ((e + 1074) * 0x10000000000000 + m) ((e' + 1074) * 0x10000000000000 + m') := by
  obtain ⟨-, lt, low, -, normal⟩ := h
  obtain ⟨-, lt', low', -, normal'⟩ := h'
  rcases Int.lt_trichotomy e e' with less | rfl | more
  · rw [Int.compare_eq_lt.mpr less, Int.compare_eq_lt.mpr (by omega)]
    rfl
  · rw [Int.compare_eq_eq.mpr rfl, Ordering.eq_then]
    rcases Nat.lt_trichotomy m m' with less | rfl | more
    · rw [Nat.compare_eq_lt.mpr less, Int.compare_eq_lt.mpr (by omega)]
    · rw [Nat.compare_eq_eq.mpr rfl, Int.compare_eq_eq.mpr rfl]
    · rw [Nat.compare_eq_gt.mpr more, Int.compare_eq_gt.mpr (by omega)]
  · rw [Int.compare_eq_gt.mpr more, Int.compare_eq_gt.mpr (by omega)]
    rfl

/-- Numbers are compared as their levels are. -/
theorem Stands.compare_eq {a b : UInt64} {x y : UnpackedFloat} (hx : Stands a x) (hy : Stands b y)
    (ha : magnitude a ≤ 0x7FF0000000000000) (hb : magnitude b ≤ 0x7FF0000000000000) :
    x.compare y = some (compare (level a) (level b)) := by
  unfold level
  have boundsA := apply_bounds (sign a) (magnitude a)
  have boundsB := apply_bounds (sign b) (magnitude b)
  cases hx with
  | notANumber h => omega
  | infinity h =>
    rw [h] at boundsA ⊢
    cases hy with
    | notANumber h' => omega
    | infinity h' => rw [h']; cases sign a <;> cases sign b <;> rfl
    | zero h' => rw [h']; cases sign a <;> cases sign b <;> rfl
    | finite canonical h' =>
      obtain ⟨-, lt, -, high, -⟩ := canonical
      cases sign a with
      | negative => rw [apply_negative, Int.compare_eq_lt.mpr (by omega)]; rfl
      | positive => rw [apply_positive, Int.compare_eq_gt.mpr (by omega)]; rfl
  | zero h =>
    rw [h] at boundsA ⊢
    cases hy with
    | notANumber h' => omega
    | infinity h' => rw [h']; cases sign a <;> cases sign b <;> rfl
    | zero h' => rw [h']; cases sign a <;> cases sign b <;> rfl
    | finite canonical h' =>
      obtain ⟨pos, -, low, -, -⟩ := canonical
      cases sign b with
      | negative => rw [apply_negative, Int.compare_eq_gt.mpr (by omega)]; rfl
      | positive => rw [apply_positive, Int.compare_eq_lt.mpr (by omega)]; rfl
  | finite canonical h =>
    cases hy with
    | notANumber h' => omega
    | infinity h' =>
      obtain ⟨-, lt, -, high, -⟩ := canonical
      rw [h'] at boundsB ⊢
      cases sign b with
      | negative =>
        rw [apply_negative, Int.compare_eq_gt.mpr (by omega)]
        cases sign a <;> rfl
      | positive =>
        rw [apply_positive, Int.compare_eq_lt.mpr (by omega)]
        cases sign a <;> rfl
    | zero h' =>
      obtain ⟨pos, -, low, -, -⟩ := canonical
      rw [h'] at boundsB ⊢
      cases sign a with
      | negative => rw [apply_negative, Int.compare_eq_lt.mpr (by omega)]; rfl
      | positive => rw [apply_positive, Int.compare_eq_gt.mpr (by omega)]; rfl
    | finite canonical' h' =>
      have same := compare_finite canonical canonical'
      rw [← h, ← h'] at same
      obtain ⟨pos, -, low, -, -⟩ := canonical
      obtain ⟨pos', -, low', -, -⟩ := canonical'
      cases sign a with
      | negative =>
        cases sign b with
        | negative =>
          rw [apply_negative, apply_negative, compare_neg, ← Int.compare_swap, ← same]
          rfl
        | positive =>
          rw [apply_negative, apply_positive, Int.compare_eq_lt.mpr (by omega)]
          rfl
      | positive =>
        cases sign b with
        | negative =>
          rw [apply_negative, apply_positive, Int.compare_eq_gt.mpr (by omega)]
          rfl
        | positive =>
          rw [apply_positive, apply_positive, ← same]
          rfl

theorem Stands.isNaN_iff {bits : UInt64} {x : UnpackedFloat} (h : Stands bits x) :
    x.isNaN = true ↔ 0x7FF0000000000000 < magnitude bits := by
  cases h with
  | infinity h => simp [UnpackedFloat.isNaN, h]
  | notANumber h => simp [UnpackedFloat.isNaN, h]
  | zero h => simp [UnpackedFloat.isNaN, h]
  | finite canonical h =>
    obtain ⟨-, lt, -, high, -⟩ := canonical
    simp only [UnpackedFloat.isNaN, Bool.false_eq_true, false_iff]
    omega

theorem Stands.compare_eq_none {a b : UInt64} {x y : UnpackedFloat} (hx : Stands a x)
    (hy : Stands b y)
    (h : 0x7FF0000000000000 < magnitude a ∨ 0x7FF0000000000000 < magnitude b) :
    x.compare y = none := by
  rw [← hx.isNaN_iff, ← hy.isNaN_iff] at h
  cases x <;> cases y <;> simp_all [UnpackedFloat.isNaN, UnpackedFloat.compare]

/-- The pattern stands for no number. -/
def IsNaN (bits : UInt64) : Prop := (Float.ofBits bits).isNaN = true

theorem isNaN_iff {bits : UInt64} : IsNaN bits ↔ 0x7FF0000000000000 < magnitude bits := by
  change (Float.ofBits bits).toModel.unpack.isNaN = true ↔ _
  rw [unpack_ofBits]
  exact (stands_unpack bits).isNaN_iff

theorem lt_iff_compare {x y : Float} :
    x < y ↔ x.toModel.unpack.compare y.toModel.unpack = some .lt :=
  decide_eq_true_iff.trans beq_iff_eq

theorem beq_iff_compare {x y : Float} :
    (x == y) = true ↔ x.toModel.unpack.compare y.toModel.unpack = some .eq := by
  change (x.toModel.unpack.compare y.toModel.unpack == some .eq) = true ↔ _
  exact beq_iff_eq

/-- The numbers of two patterns are ordered like the levels, and nothing else is ordered. -/
theorem compare_ofBits {a b : UInt64} {o : Ordering} :
    (Float.ofBits a).toModel.unpack.compare (Float.ofBits b).toModel.unpack = some o ↔
      ¬ IsNaN a ∧ ¬ IsNaN b ∧ compare (level a) (level b) = o := by
  rw [unpack_ofBits, unpack_ofBits, isNaN_iff, isNaN_iff]
  by_cases h : 0x7FF0000000000000 < magnitude a ∨ 0x7FF0000000000000 < magnitude b
  · rw [(stands_unpack a).compare_eq_none (stands_unpack b) h]
    simp only [reduceCtorEq, false_iff]
    rintro ⟨ha, hb, -⟩
    exact h.elim ha hb
  · obtain ⟨ha, hb⟩ := not_or.mp h
    rw [(stands_unpack a).compare_eq (stands_unpack b) (by omega) (by omega), Option.some.injEq]
    exact ⟨fun same => ⟨ha, hb, same⟩, fun h => h.2.2⟩

theorem lt_ofBits_iff {a b : UInt64} :
    Float.ofBits a < Float.ofBits b ↔ ¬ IsNaN a ∧ ¬ IsNaN b ∧ level a < level b := by
  rw [lt_iff_compare, compare_ofBits, Int.compare_eq_lt]

theorem beq_ofBits_iff {a b : UInt64} :
    (Float.ofBits a == Float.ofBits b) = true ↔ ¬ IsNaN a ∧ ¬ IsNaN b ∧ level a = level b := by
  rw [beq_iff_compare, compare_ofBits, Int.compare_eq_eq]

/-! ## The order -/

/-- The bit by which the quiet ones are told among the patterns that stand for no number. -/
def quiet (bits : UInt64) : Nat := bits.toNat / 0x8000000000000 % 2

/-- What is behind that bit. -/
def payload (bits : UInt64) : Nat := bits.toNat % 0x8000000000000

/-- Signalling before quiet, and then by the payload. -/
def Lesser (a b : UInt64) : Prop := quiet a < quiet b ∨ quiet a = quiet b ∧ payload a ≤ payload b

/-- The total order of IEEE 754: that one pattern stands before another, or is the same. -/
inductive TotalOrder (a b : UInt64) : Prop
  | less : Float.ofBits a < Float.ofBits b → TotalOrder a b
  /-- Equal numbers with different signs are the two zeros. -/
  | equal : (Float.ofBits a == Float.ofBits b) = true → (Negative b → Negative a) → TotalOrder a b
  | first : IsNaN a → Negative a → ¬ IsNaN b → TotalOrder a b
  | last : ¬ IsNaN a → IsNaN b → ¬ Negative b → TotalOrder a b
  | apart : IsNaN a → IsNaN b → Negative a → ¬ Negative b → TotalOrder a b
  | positive : IsNaN a → IsNaN b → ¬ Negative a → ¬ Negative b → Lesser a b → TotalOrder a b
  /-- Behind a set sign bit the order is the other way round. -/
  | negative : IsNaN a → IsNaN b → Negative a → Negative b → Lesser b a → TotalOrder a b

/-- A rank tells the sign and the bits behind it. -/
theorem rank_cases (bits : UInt64) :
    (Negative bits ∧ rank bits + magnitude bits + 1 = 0x8000000000000000 ∧
      level bits = -magnitude bits) ∨
    (¬ Negative bits ∧ rank bits = 0x8000000000000000 + magnitude bits ∧
      level bits = magnitude bits) := by
  have below := bits.toNat_lt
  unfold level sign
  by_cases h : Negative bits
  · rw [if_pos h]
    refine .inl ⟨h, ?_, apply_negative _⟩
    unfold Negative at h
    rw [rank, magnitude, if_neg (by omega)]
    omega
  · rw [if_neg h]
    refine .inr ⟨h, ?_, apply_positive _⟩
    unfold Negative at h
    rw [rank, magnitude, if_pos (by omega)]
    omega

theorem lesser_iff {a b : UInt64} (ha : IsNaN a) (hb : IsNaN b) :
    Lesser a b ↔ magnitude a ≤ magnitude b := by
  rw [isNaN_iff] at ha hb
  unfold magnitude at ha hb
  unfold Lesser quiet payload magnitude
  omega

theorem TotalOrder.rank_le {a b : UInt64} (h : TotalOrder a b) : rank a ≤ rank b := by
  have below : magnitude a < 0x8000000000000000 := Nat.mod_lt _ (by decide)
  have below' : magnitude b < 0x8000000000000000 := Nat.mod_lt _ (by decide)
  cases h with
  | less h =>
    obtain ⟨-, -, h⟩ := lt_ofBits_iff.mp h
    rcases rank_cases a with ⟨-, ha, la⟩ | ⟨-, ha, la⟩ <;>
      rcases rank_cases b with ⟨-, hb, lb⟩ | ⟨-, hb, lb⟩ <;> omega
  | equal h sign =>
    obtain ⟨-, -, h⟩ := beq_ofBits_iff.mp h
    rcases rank_cases a with ⟨-, ha, la⟩ | ⟨clear, ha, la⟩ <;>
      rcases rank_cases b with ⟨set, hb, lb⟩ | ⟨-, hb, lb⟩
    · omega
    · omega
    · exact absurd (sign set) clear
    · omega
  | first nan set number =>
    rw [isNaN_iff] at nan number
    obtain ⟨-, ha, -⟩ := (rank_cases a).resolve_right fun h => h.1 set
    rcases rank_cases b with ⟨-, hb, -⟩ | ⟨-, hb, -⟩ <;> omega
  | last number nan clear =>
    rw [isNaN_iff] at nan number
    obtain ⟨-, hb, -⟩ := (rank_cases b).resolve_left fun h => clear h.1
    rcases rank_cases a with ⟨-, ha, -⟩ | ⟨-, ha, -⟩ <;> omega
  | apart _ _ set clear =>
    obtain ⟨-, ha, -⟩ := (rank_cases a).resolve_right fun h => h.1 set
    obtain ⟨-, hb, -⟩ := (rank_cases b).resolve_left fun h => clear h.1
    omega
  | positive nan nan' clear clear' lesser =>
    rw [lesser_iff nan nan'] at lesser
    obtain ⟨-, ha, -⟩ := (rank_cases a).resolve_left fun h => clear h.1
    obtain ⟨-, hb, -⟩ := (rank_cases b).resolve_left fun h => clear' h.1
    omega
  | negative nan nan' set set' lesser =>
    rw [lesser_iff nan' nan] at lesser
    obtain ⟨-, ha, -⟩ := (rank_cases a).resolve_right fun h => h.1 set
    obtain ⟨-, hb, -⟩ := (rank_cases b).resolve_right fun h => h.1 set'
    omega

theorem totalOrder_of_rank_le {a b : UInt64} (h : rank a ≤ rank b) : TotalOrder a b := by
  have below : magnitude a < 0x8000000000000000 := Nat.mod_lt _ (by decide)
  have below' : magnitude b < 0x8000000000000000 := Nat.mod_lt _ (by decide)
  by_cases nan : IsNaN a <;> by_cases nan' : IsNaN b
  · -- Neither is a number.
    rcases rank_cases a with ⟨set, ha, -⟩ | ⟨clear, ha, -⟩ <;>
      rcases rank_cases b with ⟨set', hb, -⟩ | ⟨clear', hb, -⟩
    · exact .negative nan nan' set set' ((lesser_iff nan' nan).mpr (by omega))
    · exact .apart nan nan' set clear'
    · omega
    · exact .positive nan nan' clear clear' ((lesser_iff nan nan').mpr (by omega))
  · rcases rank_cases a with ⟨set, -, -⟩ | ⟨-, ha, -⟩
    · exact .first nan set nan'
    · rw [isNaN_iff] at nan nan'
      rcases rank_cases b with ⟨-, hb, -⟩ | ⟨-, hb, -⟩ <;> omega
  · rcases rank_cases b with ⟨-, hb, -⟩ | ⟨clear, -, -⟩
    · rw [isNaN_iff] at nan nan'
      rcases rank_cases a with ⟨-, ha, -⟩ | ⟨-, ha, -⟩ <;> omega
    · exact .last nan nan' clear
  · -- Both are numbers, and only zeros with a sign are of one level and two ranks.
    rcases Int.lt_trichotomy (level a) (level b) with less | same | more
    · exact .less (lt_ofBits_iff.mpr ⟨nan, nan', less⟩)
    · refine .equal (beq_ofBits_iff.mpr ⟨nan, nan', same⟩) fun set => ?_
      rcases rank_cases a with ⟨set', -, -⟩ | ⟨-, ha, -⟩
      · exact set'
      · obtain ⟨-, hb, -⟩ := (rank_cases b).resolve_right fun h => h.1 set
        omega
    · rcases rank_cases a with ⟨-, ha, la⟩ | ⟨-, ha, la⟩ <;>
        rcases rank_cases b with ⟨-, hb, lb⟩ | ⟨-, hb, lb⟩ <;> omega

/-- **The order of the ranks is the total order.** -/
theorem totalOrder_iff {a b : UInt64} : TotalOrder a b ↔ cmp a b ≠ .gt := by
  rw [cmp, Nat.compare_ne_gt]
  exact ⟨TotalOrder.rank_le, totalOrder_of_rank_le⟩

end Federate.Double
