/-
Discrete logical time: whole ticks from zero to `2 ^ 63 - 1`, with signed 64-bit
intervals between them. Arithmetic is exact: a sum or difference is either the
one of the integers or refused for leaving its range (`toInt_add`, `toInt_subtract`).
-/
import Federate.Bytes
import Federate.Fault
namespace Federate

/-- A point of discrete time. -/
structure DiscreteTime where
  ticks : Nat
  ticks_lt : ticks < 0x8000000000000000
  deriving DecidableEq

/-- A signed span of discrete time. -/
structure DiscreteInterval where
  ticks : Int
  le_ticks : -0x8000000000000000 ≤ ticks
  ticks_lt : ticks < 0x8000000000000000
  deriving DecidableEq

namespace DiscreteInterval

/-- The interval of so many ticks, if they fit. -/
def ofInt? (n : Int) : Option DiscreteInterval :=
  if h : -0x8000000000000000 ≤ n ∧ n < 0x8000000000000000 then some ⟨n, h.1, h.2⟩ else none

def zero : DiscreteInterval := ⟨0, by decide, by decide⟩

/-- The least positive interval. -/
def epsilon : DiscreteInterval := ⟨1, by decide, by decide⟩

private def inRange (n : Int) (operation : String) : Except Fault DiscreteInterval :=
  match ofInt? n with
  | some i => .ok i
  | none => .error (.known .illegalTimeArithmetic ("calculation overflow in " ++ operation))

def add (a b : DiscreteInterval) : Except Fault DiscreteInterval :=
  inRange (a.ticks + b.ticks) "add"

def subtract (a b : DiscreteInterval) : Except Fault DiscreteInterval :=
  inRange (a.ticks - b.ticks) "subtract"

def cmp (a b : DiscreteInterval) : Ordering := compare a.ticks b.ticks

/-- The word by which an interval is hashed. -/
def hashed (i : DiscreteInterval) : UInt64 := (Int64.ofInt i.ticks).toUInt64

def text (i : DiscreteInterval) : String := s!"HLAinteger64Interval<{i.ticks}>"

/-- Eight bytes, negative numbers in two's complement. -/
def bytes (i : DiscreteInterval) : Bytes := Bytes.ofNat 8 (i.ticks % 0x10000000000000000).toNat

/-- The interval of eight bytes; every pattern is one. -/
def ofBytes (bs : Bytes) : DiscreteInterval :=
  ⟨Int.bmod bs.toNat 0x10000000000000000, by
    have := Int.le_bmod (x := bs.toNat) (m := 0x10000000000000000) (by decide); omega, by
    have := Int.bmod_lt (x := bs.toNat) (m := 0x10000000000000000) (by decide); omega⟩

@[ext] theorem ext {a b : DiscreteInterval} (h : a.ticks = b.ticks) : a = b := by
  cases a; cases b; simp_all

/-- Two's complement holds every signed number of 64 bits. -/
theorem bmod_emod {n : Int} (hlow : -0x8000000000000000 ≤ n) (hhigh : n < 0x8000000000000000) :
    Int.bmod (n % 0x10000000000000000) 0x10000000000000000 = n :=
  calc Int.bmod (n % 0x10000000000000000) 0x10000000000000000
      = Int.bmod n 0x10000000000000000 := Int.emod_bmod n 0x10000000000000000
    _ = n := Int.bmod_eq_of_le_mul_two (by omega) (by omega)

theorem ticks_ofBytes (bs : Bytes) :
    (ofBytes bs).ticks = Int.bmod bs.toNat 0x10000000000000000 := by
  obtain ⟨_, _, h⟩ : ∃ hlow hhigh,
      ofBytes bs = ⟨Int.bmod bs.toNat 0x10000000000000000, hlow, hhigh⟩ := ⟨_, _, rfl⟩
  rw [h]

theorem ofBytes_bytes (i : DiscreteInterval) : ofBytes i.bytes = i := by
  have hlt : (i.ticks % 0x10000000000000000).toNat < Bytes.capacity 8 := by
    rw [Bytes.capacity_eight]
    omega
  have hcast : (((i.ticks % 0x10000000000000000).toNat : Nat) : Int) =
      i.ticks % 0x10000000000000000 := Int.toNat_of_nonneg (by omega)
  have hbytes : ((Bytes.toNat i.bytes : Nat) : Int) = i.ticks % 0x10000000000000000 := by
    rw [bytes, Bytes.toNat_ofNat_of_lt hlt, hcast]
  apply ext
  rw [ticks_ofBytes, hbytes]
  exact bmod_emod i.le_ticks i.ticks_lt

private theorem inRange_cases (n : Int) (operation : String) :
    (∃ c, inRange n operation = .ok c ∧ c.ticks = n) ∨
    (¬ (-0x8000000000000000 ≤ n ∧ n < 0x8000000000000000) ∧ inRange n operation =
      .error (.known .illegalTimeArithmetic ("calculation overflow in " ++ operation))) := by
  unfold inRange ofInt?
  by_cases h : -0x8000000000000000 ≤ n ∧ n < 0x8000000000000000
  · exact .inl ⟨⟨n, h.1, h.2⟩, by rw [dif_pos h], rfl⟩
  · exact .inr ⟨h, by rw [dif_neg h]⟩

/-- A sum of intervals is that of the integers, or it is refused for leaving 64 bits. -/
theorem add_cases (a b : DiscreteInterval) :
    (∃ c, a.add b = .ok c ∧ c.ticks = a.ticks + b.ticks) ∨
    (¬ (-0x8000000000000000 ≤ a.ticks + b.ticks ∧ a.ticks + b.ticks < 0x8000000000000000) ∧
      a.add b = .error (.known .illegalTimeArithmetic ("calculation overflow in " ++ "add"))) :=
  inRange_cases (a.ticks + b.ticks) "add"

theorem subtract_cases (a b : DiscreteInterval) :
    (∃ c, a.subtract b = .ok c ∧ c.ticks = a.ticks - b.ticks) ∨
    (¬ (-0x8000000000000000 ≤ a.ticks - b.ticks ∧ a.ticks - b.ticks < 0x8000000000000000) ∧
      a.subtract b =
        .error (.known .illegalTimeArithmetic ("calculation overflow in " ++ "subtract"))) :=
  inRange_cases (a.ticks - b.ticks) "subtract"

private theorem inRange_eq_ok_iff {n : Int} {operation : String} {c : DiscreteInterval} :
    inRange n operation = .ok c ↔ c.ticks = n := by
  rcases inRange_cases n operation with ⟨d, hd, rfl⟩ | ⟨out, herror⟩
  · rw [hd, Except.ok.injEq]
    exact ⟨fun h => h ▸ rfl, fun h => ext h.symm⟩
  · have low := c.le_ticks
    have high := c.ticks_lt
    rw [herror]
    simp only [reduceCtorEq, false_iff]
    omega

theorem toInt_add {a b c : DiscreteInterval} :
    a.add b = .ok c ↔ c.ticks = a.ticks + b.ticks := inRange_eq_ok_iff

theorem toInt_subtract {a b c : DiscreteInterval} :
    a.subtract b = .ok c ↔ c.ticks = a.ticks - b.ticks := inRange_eq_ok_iff

end DiscreteInterval

namespace DiscreteTime

/-- The time of so many ticks; none are below the initial time. -/
def ofInt (n : Int) : Except Fault DiscreteTime :=
  if h : 0 ≤ n ∧ n < 0x8000000000000000 then .ok ⟨n.toNat, by omega⟩
  else .error (.known .invalidLogicalTime s!"{n} below initial time")

def initial : DiscreteTime := ⟨0, by decide⟩
def final : DiscreteTime := ⟨0x8000000000000000 - 1, by decide⟩

private def inRange (n : Int) (operation : String) : Except Fault DiscreteTime :=
  if h : 0 ≤ n ∧ n < 0x8000000000000000 then .ok ⟨n.toNat, by omega⟩
  else if n < 0 then
    .error (.known .illegalTimeArithmetic (operation ++ s!" result {n} below initial time"))
  else .error (.known .illegalTimeArithmetic ("calculation overflow in " ++ operation))

def add (t : DiscreteTime) (i : DiscreteInterval) : Except Fault DiscreteTime :=
  inRange (t.ticks + i.ticks) "add"

def subtract (t : DiscreteTime) (i : DiscreteInterval) : Except Fault DiscreteTime :=
  inRange (t.ticks - i.ticks) "subtract"

/-- How far two times lie apart. -/
def distance (a b : DiscreteTime) : DiscreteInterval :=
  ⟨((a.ticks : Int) - b.ticks).natAbs, by omega, by
    have := a.ticks_lt; have := b.ticks_lt; omega⟩

def cmp (a b : DiscreteTime) : Ordering := compare a.ticks b.ticks

/-- The word by which a time is hashed. -/
def hashed (t : DiscreteTime) : UInt64 := (Int64.ofInt t.ticks).toUInt64

/-- The final time is written as infinity. -/
def text (t : DiscreteTime) : String :=
  if t = final then "HLAinteger64Time<INF>" else s!"HLAinteger64Time<{t.ticks}>"

def bytes (t : DiscreteTime) : Bytes := Bytes.ofNat 8 t.ticks

/-- The time of eight bytes, which must not denote a negative number. -/
def ofBytes (bs : Bytes) : Except Fault DiscreteTime :=
  (ofInt (Int.bmod bs.toNat 0x10000000000000000)).mapError fun e =>
    .couldNotDecode ("HLAinteger64Time: " ++ e.message)

@[ext] theorem ext {a b : DiscreteTime} (h : a.ticks = b.ticks) : a = b := by
  cases a; cases b; simp_all

theorem ofInt_ticks (t : DiscreteTime) : ofInt t.ticks = .ok t := by
  have := t.ticks_lt
  rw [ofInt, dif_pos ⟨by omega, by omega⟩]
  rfl

theorem ofBytes_bytes (t : DiscreteTime) : ofBytes t.bytes = .ok t := by
  have hlt := t.ticks_lt
  have hsmall : t.ticks < Bytes.capacity 8 := by rw [Bytes.capacity_eight]; omega
  have hticks : Int.bmod t.ticks 0x10000000000000000 = t.ticks :=
    Int.bmod_eq_of_le_mul_two (by omega) (by omega)
  rw [ofBytes, bytes, Bytes.toNat_ofNat_of_lt hsmall, hticks, ofInt_ticks]
  rfl

private theorem inRange_cases (n : Int) (operation : String) :
    (∃ t, inRange n operation = .ok t ∧ (t.ticks : Int) = n) ∨
    (n < 0 ∧ inRange n operation =
      .error (.known .illegalTimeArithmetic (operation ++ s!" result {n} below initial time"))) ∨
    (0x8000000000000000 ≤ n ∧ inRange n operation =
      .error (.known .illegalTimeArithmetic ("calculation overflow in " ++ operation))) := by
  unfold inRange
  by_cases h : 0 ≤ n ∧ n < 0x8000000000000000
  · exact .inl ⟨⟨n.toNat, by omega⟩, by rw [dif_pos h], Int.toNat_of_nonneg h.1⟩
  · rw [dif_neg h]
    by_cases hn : n < 0
    · exact .inr (.inl ⟨hn, if_pos hn⟩)
    · exact .inr (.inr ⟨by omega, if_neg hn⟩)

/-- A sum is that of the integers, or it is refused for being too early or too late. -/
theorem add_cases (t : DiscreteTime) (i : DiscreteInterval) :
    (∃ s, t.add i = .ok s ∧ (s.ticks : Int) = t.ticks + i.ticks) ∨
    (t.ticks + i.ticks < 0 ∧ t.add i = .error (.known .illegalTimeArithmetic
      ("add" ++ s!" result {t.ticks + i.ticks} below initial time"))) ∨
    (0x8000000000000000 ≤ t.ticks + i.ticks ∧ t.add i =
      .error (.known .illegalTimeArithmetic ("calculation overflow in " ++ "add"))) :=
  inRange_cases (t.ticks + i.ticks) "add"

theorem subtract_cases (t : DiscreteTime) (i : DiscreteInterval) :
    (∃ s, t.subtract i = .ok s ∧ (s.ticks : Int) = t.ticks - i.ticks) ∨
    (t.ticks - i.ticks < 0 ∧ t.subtract i = .error (.known .illegalTimeArithmetic
      ("subtract" ++ s!" result {t.ticks - i.ticks} below initial time"))) ∨
    (0x8000000000000000 ≤ t.ticks - i.ticks ∧ t.subtract i =
      .error (.known .illegalTimeArithmetic ("calculation overflow in " ++ "subtract"))) :=
  inRange_cases (t.ticks - i.ticks) "subtract"

private theorem inRange_eq_ok_iff {n : Int} {operation : String} {t : DiscreteTime} :
    inRange n operation = .ok t ↔ (t.ticks : Int) = n := by
  rcases inRange_cases n operation with ⟨s, hs, rfl⟩ | ⟨early, herror⟩ | ⟨late, herror⟩
  · rw [hs, Except.ok.injEq]
    exact ⟨fun h => h ▸ rfl, fun h => ext (Int.ofNat_inj.mp h).symm⟩
  · rw [herror]
    simp only [reduceCtorEq, false_iff]
    omega
  · have high := t.ticks_lt
    rw [herror]
    simp only [reduceCtorEq, false_iff]
    omega

theorem toInt_add {t s : DiscreteTime} {i : DiscreteInterval} :
    t.add i = .ok s ↔ (s.ticks : Int) = t.ticks + i.ticks := inRange_eq_ok_iff

theorem toInt_subtract {t s : DiscreteTime} {i : DiscreteInterval} :
    t.subtract i = .ok s ↔ (s.ticks : Int) = t.ticks - i.ticks := inRange_eq_ok_iff

end DiscreteTime

end Federate
