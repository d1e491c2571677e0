/-
Discrete time in machine words. A time and an interval are each one signed word
of 64 bits, on which sums and differences are computed with a look at overflow,
and distances without a sign and without such a look. No operation ever yields a
word below zero as a time (`Obtained.nonneg`), and each of them comes to what it
comes to on times, faults and their wording included (`add_word`,
`subtract_word`, `distance_word`).
-/
import Federate.Time.Discrete
namespace Federate

namespace Word

/-- The sum of two words, unless it leaves their range. -/
def add? (a b : Int64) : Option Int64 :=
  if (a + b).toInt = a.toInt + b.toInt then some (a + b) else none

/-- The difference of two words, unless it leaves their range. -/
def subtract? (a b : Int64) : Option Int64 :=
  if (a - b).toInt = a.toInt - b.toInt then some (a - b) else none

/-- The lower of two words taken from the higher, both without a sign. -/
def gap (a b : Int64) : UInt64 :=
  if a < b then b.toUInt64 - a.toUInt64 else a.toUInt64 - b.toUInt64

theorem toInt_bounds (a : Int64) :
    -0x8000000000000000 ≤ a.toInt ∧ a.toInt < 0x8000000000000000 :=
  ⟨a.le_toInt, a.toInt_lt⟩

theorem add?_eq_some_iff {a b c : Int64} : add? a b = some c ↔ c.toInt = a.toInt + b.toInt := by
  unfold add?
  constructor
  · intro h
    split at h
    · next fits => cases h; exact fits
    · cases h
  · intro h
    obtain ⟨low, high⟩ := toInt_bounds c
    have sum : (a + b).toInt = a.toInt + b.toInt := by
      rw [Int64.toInt_add, Int.bmod_eq_of_le_mul_two (by omega) (by omega)]
    rw [if_pos sum, Option.some.injEq, ← Int64.toInt_inj, sum, h]

theorem subtract?_eq_some_iff {a b c : Int64} :
    subtract? a b = some c ↔ c.toInt = a.toInt - b.toInt := by
  unfold subtract?
  constructor
  · intro h
    split at h
    · next fits => cases h; exact fits
    · cases h
  · intro h
    obtain ⟨low, high⟩ := toInt_bounds c
    have difference : (a - b).toInt = a.toInt - b.toInt := by
      rw [Int64.toInt_sub, Int.bmod_eq_of_le_mul_two (by omega) (by omega)]
    rw [if_pos difference, Option.some.injEq, ← Int64.toInt_inj, difference, h]

theorem toNat_toUInt64 {a : Int64} (h : 0 ≤ a.toInt) : (a.toUInt64.toNat : Int) = a.toInt := by
  have nonneg : 0 ≤ a := Int64.le_iff_toInt_le.mpr h
  rw [Int64.toNat_toUInt64_of_le nonneg]
  exact Int.toNat_of_nonneg h

theorem toInt_toInt64 {w : UInt64} (h : w.toNat < 0x8000000000000000) :
    w.toInt64.toInt = w.toNat := by
  have signed : w.toInt64.toInt = (w.toNat : Int).bmod (2 ^ 64) := BitVec.toInt_eq_toNat_bmod _
  rw [signed, Int.bmod_eq_of_le_mul_two (by omega) (by omega)]

/-- Without a sign, the higher of two words that are not negative is as far from the lower as
it is with one. -/
theorem toInt_ascent {a b : Int64} (ha : 0 ≤ a.toInt) (h : a.toInt ≤ b.toInt) :
    (b.toUInt64 - a.toUInt64).toInt64.toInt = b.toInt - a.toInt := by
  have unsignedA := toNat_toUInt64 ha
  have unsignedB := toNat_toUInt64 (Int.le_trans ha h)
  obtain ⟨-, highB⟩ := toInt_bounds b
  have difference := UInt64.toNat_sub_of_le b.toUInt64 a.toUInt64
    (UInt64.le_iff_toNat_le.mpr (by omega))
  rw [toInt_toInt64 (by omega)]
  omega

/-- Of words that are not negative the gap is the distance, and it is one of them. -/
theorem toInt_gap {a b : Int64} (ha : 0 ≤ a.toInt) (hb : 0 ≤ b.toInt) :
    (gap a b).toInt64.toInt = (a.toInt - b.toInt).natAbs := by
  unfold gap
  split
  · next hlt =>
    have lower := Int64.lt_iff_toInt_lt.mp hlt
    rw [toInt_ascent ha (by omega)]
    omega
  · next hlt =>
    have lower : ¬ a.toInt < b.toInt := fun h => hlt (Int64.lt_iff_toInt_lt.mpr h)
    rw [toInt_ascent hb (by omega)]
    omega

/-! ## Times as words -/

/-- A word as a time; none are below zero. -/
def asTime (v : Int64) : Except Fault Int64 :=
  if v < 0 then .error (.known .invalidLogicalTime s!"{v.toInt} below initial time") else .ok v

/-- What has been computed as a time. -/
def checked (computed : Option Int64) (operation : String) : Except Fault Int64 :=
  match computed with
  | some v =>
    if 0 ≤ v then .ok v
    else .error (.known .illegalTimeArithmetic
      (operation ++ s!" result {v.toInt} below initial time"))
  | none => .error (.known .illegalTimeArithmetic ("calculation overflow in " ++ operation))

def add (t i : Int64) : Except Fault Int64 := checked (add? t i) "add"

def subtract (t i : Int64) : Except Fault Int64 := checked (subtract? t i) "subtract"

def distance (t s : Int64) : Int64 := (gap t s).toInt64

/-- The time of eight bytes. -/
def ofBytes (bs : Bytes) : Except Fault Int64 :=
  (asTime (UInt64.ofNat bs.toNat).toInt64).mapError fun e =>
    .couldNotDecode ("HLAinteger64Time: " ++ e.message)

/-- The words that come about as times. -/
inductive Obtained : Int64 → Prop
  | initial : Obtained 0
  | final : Obtained Int64.maxValue
  | made {v w : Int64} : asTime v = .ok w → Obtained w
  | later {t i w : Int64} : Obtained t → add t i = .ok w → Obtained w
  | earlier {t i w : Int64} : Obtained t → subtract t i = .ok w → Obtained w
  | read {bs : Bytes} {w : Int64} : bs.length = 8 → ofBytes bs = .ok w → Obtained w
  | decoded {buffer bs : Bytes} {offset : Nat} {w : Int64} :
      buffer.slice? offset 8 = some bs → ofBytes bs = .ok w → Obtained w

theorem nonneg_of_checked {computed : Option Int64} {operation : String} {w : Int64}
    (h : checked computed operation = .ok w) : 0 ≤ w.toInt := by
  unfold checked at h
  split at h
  · split at h
    · next nonneg =>
      cases h
      exact Int64.le_iff_toInt_le.mp nonneg
    · cases h
  · cases h

theorem asTime_of_nonneg {v : Int64} (h : 0 ≤ v.toInt) : asTime v = .ok v := by
  refine if_neg fun below => ?_
  have negative : v.toInt < 0 := Int64.lt_iff_toInt_lt.mp below
  omega

theorem asTime_of_negative {v : Int64} (h : v.toInt < 0) :
    asTime v = .error (.known .invalidLogicalTime s!"{v.toInt} below initial time") :=
  if_pos (Int64.lt_iff_toInt_lt.mpr h)

theorem nonneg_of_asTime {v w : Int64} (h : asTime v = .ok w) : 0 ≤ w.toInt := by
  by_cases nonneg : 0 ≤ v.toInt
  · rw [asTime_of_nonneg nonneg] at h
    cases h
    exact nonneg
  · rw [asTime_of_negative (by omega)] at h
    cases h

theorem nonneg_of_ofBytes {bs : Bytes} {w : Int64} (h : ofBytes bs = .ok w) : 0 ≤ w.toInt := by
  unfold ofBytes at h
  cases made : asTime (UInt64.ofNat bs.toNat).toInt64 with
  | ok v =>
    rw [made] at h
    cases h
    exact nonneg_of_asTime made
  | error e =>
    rw [made] at h
    cases h

/-- No word below zero comes about as a time. -/
theorem Obtained.nonneg {w : Int64} (h : Obtained w) : 0 ≤ w.toInt := by
  cases h with
  | initial => decide
  | final => decide
  | made h => exact nonneg_of_asTime h
  | later _ h => exact nonneg_of_checked h
  | earlier _ h => exact nonneg_of_checked h
  | read _ h => exact nonneg_of_ofBytes h
  | decoded _ h => exact nonneg_of_ofBytes h

end Word

/-! ## The words of times and intervals -/

/-- The word of a time. -/
def DiscreteTime.word (t : DiscreteTime) : Int64 := Int64.ofInt t.ticks

/-- The word of an interval. -/
def DiscreteInterval.word (i : DiscreteInterval) : Int64 := Int64.ofInt i.ticks

namespace Word

@[simp] theorem toInt_time (t : DiscreteTime) : t.word.toInt = t.ticks := by
  have high := t.ticks_lt
  exact Int64.toInt_ofInt_of_le (by omega) (by omega)

@[simp] theorem toInt_interval (i : DiscreteInterval) : i.word.toInt = i.ticks :=
  Int64.toInt_ofInt_of_le i.le_ticks i.ticks_lt

/-- Every word is that of an interval. -/
theorem exists_interval (w : Int64) : ∃ i : DiscreteInterval, i.word = w :=
  ⟨⟨w.toInt, (toInt_bounds w).1, (toInt_bounds w).2⟩, Int64.ofInt_toInt w⟩

theorem exists_time {w : Int64} (h : 0 ≤ w.toInt) : ∃ t : DiscreteTime, t.word = w := by
  obtain ⟨low, high⟩ := toInt_bounds w
  refine ⟨⟨w.toInt.toNat, by omega⟩, Int64.toInt_inj.mp ?_⟩
  rw [toInt_time]
  exact Int.toNat_of_nonneg h

theorem toInt_nonneg (t : DiscreteTime) : 0 ≤ t.word.toInt := by
  rw [toInt_time]
  exact Int.natCast_nonneg t.ticks

/-- The words that come about as times are the words of times. -/
theorem obtained_iff {w : Int64} : Obtained w ↔ ∃ t : DiscreteTime, t.word = w := by
  constructor
  · intro h
    exact exists_time h.nonneg
  · rintro ⟨t, rfl⟩
    exact .made (asTime_of_nonneg (toInt_nonneg t))

/-- What is computed exactly, and not too early, is checked as a time is. -/
theorem checked_word {computed : Option Int64} {n : Int} {operation : String}
    {result : Except Fault DiscreteTime} (exact : ∀ {c}, computed = some c ↔ c.toInt = n)
    (low : -0x8000000000000000 ≤ n)
    (cases : (∃ t, result = .ok t ∧ (t.ticks : Int) = n) ∨
      (n < 0 ∧ result = .error (.known .illegalTimeArithmetic
        (operation ++ s!" result {n} below initial time"))) ∨
      (0x8000000000000000 ≤ n ∧ result =
        .error (.known .illegalTimeArithmetic ("calculation overflow in " ++ operation)))) :
    checked computed operation = result.map DiscreteTime.word := by
  rcases cases with ⟨t, rfl, rfl⟩ | ⟨early, rfl⟩ | ⟨late, rfl⟩
  · have nonneg : 0 ≤ t.word := Int64.le_iff_toInt_le.mpr (toInt_nonneg t)
    rw [exact.mpr (toInt_time t)]
    exact if_pos nonneg
  · have value : (Int64.ofInt n).toInt = n := Int64.toInt_ofInt_of_le low (by omega)
    have negative : ¬ 0 ≤ Int64.ofInt n := fun h => by
      have nonneg : 0 ≤ (Int64.ofInt n).toInt := Int64.le_iff_toInt_le.mp h
      omega
    rw [exact.mpr value, checked, if_neg negative, value]
    rfl
  · -- Nothing so late is a word, so nothing has been computed.
    have none : computed = none := Option.eq_none_iff_forall_ne_some.mpr fun c hc => by
      have value := exact.mp hc
      have high := (toInt_bounds c).2
      omega
    rw [none]
    rfl

theorem add_word (t : DiscreteTime) (i : DiscreteInterval) :
    add t.word i.word = (t.add i).map DiscreteTime.word := by
  have low := i.le_ticks
  refine checked_word (n := t.ticks + i.ticks) ?_ (by omega) (t.add_cases i)
  intro c
  rw [add?_eq_some_iff, toInt_time, toInt_interval]

theorem subtract_word (t : DiscreteTime) (i : DiscreteInterval) :
    subtract t.word i.word = (t.subtract i).map DiscreteTime.word := by
  have high := i.ticks_lt
  refine checked_word (n := t.ticks - i.ticks) ?_ (by omega) (t.subtract_cases i)
  intro c
  rw [subtract?_eq_some_iff, toInt_time, toInt_interval]

theorem distance_word (a b : DiscreteTime) : distance a.word b.word = (a.distance b).word := by
  apply Int64.toInt_inj.mp
  rw [distance, toInt_gap (toInt_nonneg a) (toInt_nonneg b), toInt_time, toInt_time,
    toInt_interval]
  rfl

theorem asTime_eq (v : Int64) :
    asTime v = (DiscreteTime.ofInt v.toInt).map DiscreteTime.word := by
  obtain ⟨low, high⟩ := toInt_bounds v
  by_cases nonneg : 0 ≤ v.toInt
  · obtain ⟨t, rfl⟩ := exists_time nonneg
    rw [asTime_of_nonneg nonneg, toInt_time, DiscreteTime.ofInt_ticks]
    rfl
  · rw [asTime_of_negative (by omega), DiscreteTime.ofInt, dif_neg fun h => nonneg h.1]
    rfl

/-- Eight bytes are read as a word, and as a time, alike. -/
theorem ofBytes_word (bs : Bytes) : ofBytes bs = (DiscreteTime.ofBytes bs).map DiscreteTime.word := by
  have value : (UInt64.ofNat bs.toNat).toInt64.toInt = (bs.toNat : Int).bmod (2 ^ 64) := by
    have signed : (UInt64.ofNat bs.toNat).toInt64.toInt =
        ((UInt64.ofNat bs.toNat).toNat : Int).bmod (2 ^ 64) := BitVec.toInt_eq_toNat_bmod _
    rw [signed, UInt64.toNat_ofNat', Int.natCast_emod]
    exact Int.emod_bmod (bs.toNat : Int) (2 ^ 64)
  rw [ofBytes, asTime_eq, value, DiscreteTime.ofBytes]
  cases DiscreteTime.ofInt ((bs.toNat : Int).bmod (2 ^ 64)) <;> rfl

/-! ## Intervals as words -/

/-- What is computed exactly on words is refused exactly where it is refused of intervals. -/
theorem computed_word {computed : Option Int64} {n : Int} {result : Except Fault DiscreteInterval}
    (exact : ∀ {c}, computed = some c ↔ c.toInt = n)
    (exact' : ∀ {c}, result = .ok c ↔ c.ticks = n) :
    computed = result.toOption.map DiscreteInterval.word := by
  cases result with
  | ok i => exact exact.mpr ((toInt_interval i).trans (exact'.mp rfl))
  | error e =>
    refine Option.eq_none_iff_forall_ne_some.mpr fun c hc => ?_
    obtain ⟨i, rfl⟩ := exists_interval c
    have refused := exact'.mpr ((toInt_interval i).symm.trans (exact.mp hc))
    cases refused

theorem add?_interval (a b : DiscreteInterval) :
    add? a.word b.word = (a.add b).toOption.map DiscreteInterval.word := by
  refine computed_word (n := a.ticks + b.ticks) ?_ DiscreteInterval.toInt_add
  intro c
  rw [add?_eq_some_iff, toInt_interval, toInt_interval]

theorem subtract?_interval (a b : DiscreteInterval) :
    subtract? a.word b.word = (a.subtract b).toOption.map DiscreteInterval.word := by
  refine computed_word (n := a.ticks - b.ticks) ?_ DiscreteInterval.toInt_subtract
  intro c
  rw [subtract?_eq_some_iff, toInt_interval, toInt_interval]

end Word

end Federate
