/-
Arithmetic of discrete time, against that of the integers. A sum or difference is
the integers' where that is a time (of intervals: an interval), and is refused
elsewhere (`Exactly`). Shifts of a time may be strung together: a shift that is
refused is passed over, and what is left of the chain adds up (`ticks_chain`).
-/
import Federate.Proofs.Time.Words
import Mathlib.Algebra.Order.Group.Unbundled.Int
import Mathlib.Algebra.Ring.Int.Defs
namespace Federate

/-- Whether so many ticks are those of a time. -/
def IsTime (n : Int) : Prop := 0 ≤ n ∧ n ≤ 2 ^ 63 - 1

/-- Whether so many ticks are those of an interval. -/
def IsInterval (n : Int) : Prop := -2 ^ 63 ≤ n ∧ n ≤ 2 ^ 63 - 1

theorem DiscreteTime.isTime (t : DiscreteTime) : IsTime t.ticks := by
  have := t.ticks_lt
  unfold IsTime
  omega

theorem DiscreteInterval.isInterval (i : DiscreteInterval) : IsInterval i.ticks := by
  have := i.le_ticks
  have := i.ticks_lt
  unfold IsInterval
  omega

/-- What is computed is `n` where that is in range, and is refused where it is not. -/
structure Exactly {α : Type} (ticks : α → Int) (range : Int → Prop) (computed : Except Fault α)
    (n : Int) : Prop where
  succeeds_iff : (∃ c, computed = .ok c) ↔ range n
  ok_iff : ∀ c, computed = .ok c ↔ ticks c = n
  refused : ∀ e, computed = .error e → ∃ message, e = .known .illegalTimeArithmetic message

/-- The number is in range and computed, or out of range and refused. -/
theorem Exactly.of_cases {α : Type} {ticks : α → Int} {range : Int → Prop}
    {computed : Except Fault α} {n : Int} (inside : ∀ c, range (ticks c))
    (ok_iff : ∀ c, computed = .ok c ↔ ticks c = n)
    (cases : (∃ c, computed = .ok c) ∨
      (¬ range n ∧ ∃ message, computed = .error (.known .illegalTimeArithmetic message))) :
    Exactly ticks range computed n := by
  refine ⟨⟨?_, ?_⟩, ok_iff, ?_⟩
  · rintro ⟨c, hc⟩
    exact (ok_iff c).mp hc ▸ inside c
  · intro within
    exact cases.resolve_right fun h => h.1 within
  · intro e he
    obtain ⟨c, hc⟩ | ⟨-, message, herror⟩ := cases
    · rw [hc] at he
      cases he
    · rw [herror] at he
      cases he
      exact ⟨message, rfl⟩

namespace DiscreteTime

theorem exactly_of_cases {computed : Except Fault DiscreteTime} {n : Int} {early late : String}
    (ok_iff : ∀ s, computed = .ok s ↔ (s.ticks : Int) = n)
    (cases : (∃ s, computed = .ok s ∧ (s.ticks : Int) = n) ∨
      (n < 0 ∧ computed = .error (.known .illegalTimeArithmetic early)) ∨
      (0x8000000000000000 ≤ n ∧ computed = .error (.known .illegalTimeArithmetic late))) :
    Exactly (fun s : DiscreteTime => s.ticks) IsTime computed n := by
  refine .of_cases isTime ok_iff ?_
  rcases cases with ⟨s, hs, -⟩ | ⟨low, refused⟩ | ⟨high, refused⟩
  · exact .inl ⟨s, hs⟩
  · exact .inr ⟨fun within => absurd within.1 (by omega), _, refused⟩
  · exact .inr ⟨fun within => absurd within.2 (by omega), _, refused⟩

theorem exactly_add (t : DiscreteTime) (i : DiscreteInterval) :
    Exactly (fun s : DiscreteTime => s.ticks) IsTime (t.add i) (t.ticks + i.ticks) :=
  exactly_of_cases (fun _ => toInt_add) (t.add_cases i)

theorem exactly_subtract (t : DiscreteTime) (i : DiscreteInterval) :
    Exactly (fun s : DiscreteTime => s.ticks) IsTime (t.subtract i) (t.ticks - i.ticks) :=
  exactly_of_cases (fun _ => toInt_subtract) (t.subtract_cases i)

/-- A step forth is undone by the same step back, and the other way round. -/
theorem add_eq_ok_iff_subtract {t s : DiscreteTime} {i : DiscreteInterval} :
    t.add i = .ok s ↔ s.subtract i = .ok t := by
  rw [toInt_add, toInt_subtract]
  omega

theorem ticks_distance (a b : DiscreteTime) :
    (a.distance b).ticks = |(a.ticks : Int) - b.ticks| :=
  Int.natCast_natAbs ((a.ticks : Int) - b.ticks)

theorem distance_comm (a b : DiscreteTime) : a.distance b = b.distance a := by
  apply DiscreteInterval.ext
  rw [ticks_distance, ticks_distance]
  exact abs_sub_comm (a.ticks : Int) b.ticks

/-- The distance leads from the earlier of two times to the later. -/
theorem add_distance {a b : DiscreteTime} (h : a.ticks ≤ b.ticks) :
    a.add (a.distance b) = .ok b := by
  have gap : (a.distance b).ticks = ((a.ticks : Int) - b.ticks).natAbs := rfl
  rw [toInt_add, gap]
  omega

end DiscreteTime

namespace DiscreteInterval

theorem exactly_of_cases {computed : Except Fault DiscreteInterval} {n : Int} {message : String}
    (ok_iff : ∀ c, computed = .ok c ↔ c.ticks = n)
    (cases : (∃ c, computed = .ok c ∧ c.ticks = n) ∨
      (¬ (-0x8000000000000000 ≤ n ∧ n < 0x8000000000000000) ∧
        computed = .error (.known .illegalTimeArithmetic message))) :
    Exactly DiscreteInterval.ticks IsInterval computed n := by
  refine .of_cases isInterval ok_iff ?_
  rcases cases with ⟨c, hc, -⟩ | ⟨outside, refused⟩
  · exact .inl ⟨c, hc⟩
  · refine .inr ⟨fun within => outside ?_, _, refused⟩
    unfold IsInterval at within
    omega

theorem exactly_add (a b : DiscreteInterval) :
    Exactly DiscreteInterval.ticks IsInterval (a.add b) (a.ticks + b.ticks) :=
  exactly_of_cases (fun _ => toInt_add) (a.add_cases b)

theorem exactly_subtract (a b : DiscreteInterval) :
    Exactly DiscreteInterval.ticks IsInterval (a.subtract b) (a.ticks - b.ticks) :=
  exactly_of_cases (fun _ => toInt_subtract) (a.subtract_cases b)

end DiscreteInterval

/-! ## Chains of shifts -/

/-- A shift of a time by an interval. -/
inductive Shift where
  | forth (i : DiscreteInterval)
  | back (i : DiscreteInterval)

namespace Shift

def apply (t : DiscreteTime) : Shift → Except Fault DiscreteTime
  | forth i => t.add i
  | back i => t.subtract i

/-- How many ticks a shift is meant to move a time. -/
def amount : Shift → Int
  | forth i => i.ticks
  | back i => -i.ticks

/-- The time after a chain of shifts, with each that fails passed over. -/
def chain (t : DiscreteTime) : List Shift → DiscreteTime
  | [] => t
  | m :: ms =>
    match m.apply t with
    | .ok s => chain s ms
    | .error _ => chain t ms

/-- The shifts of a chain that do not fail. -/
def made (t : DiscreteTime) : List Shift → List Shift
  | [] => []
  | m :: ms =>
    match m.apply t with
    | .ok s => m :: made s ms
    | .error _ => made t ms

theorem apply_eq_ok_iff {m : Shift} {t s : DiscreteTime} :
    m.apply t = .ok s ↔ (s.ticks : Int) = t.ticks + m.amount := by
  cases m with
  | forth i => exact DiscreteTime.toInt_add
  | back i => exact DiscreteTime.toInt_subtract.trans (by rw [amount, ← sub_eq_add_neg])

theorem made_sublist (t : DiscreteTime) (ms : List Shift) : (made t ms).Sublist ms := by
  induction ms generalizing t with
  | nil => exact .slnil
  | cons m ms ih =>
    unfold made
    cases m.apply t with
    | ok s => exact (ih s).cons_cons m
    | error e => exact (ih t).cons m

/-- A chain moves a time by what its shifts that did not fail add up to. -/
theorem ticks_chain (t : DiscreteTime) (ms : List Shift) :
    ((chain t ms).ticks : Int) = t.ticks + ((made t ms).map amount).sum := by
  -- The start is general: what follows a shift that is made starts where it leads.
  induction ms generalizing t with
  | nil => exact (add_zero (t.ticks : Int)).symm
  | cons m ms ih =>
    unfold chain made
    cases step : m.apply t with
    | error e => exact ih t
    | ok s =>
      calc ((chain s ms).ticks : Int)
          = s.ticks + ((made s ms).map amount).sum := ih s
        _ = t.ticks + m.amount + ((made s ms).map amount).sum := by rw [apply_eq_ok_iff.mp step]
        _ = t.ticks + ((m :: made s ms).map amount).sum := by
          rw [List.map_cons, List.sum_cons, add_assoc]

end Shift

/-! ## The words and the numbers -/

/-- On words every operation comes to what it comes to on times and intervals, and no
other words come about as times than those of times. -/
structure Word.Agreement : Prop where
  obtained_iff : ∀ w, Obtained w ↔ ∃ t : DiscreteTime, t.word = w
  made : ∀ v, asTime v = (DiscreteTime.ofInt v.toInt).map DiscreteTime.word
  read : ∀ bs, ofBytes bs = (DiscreteTime.ofBytes bs).map DiscreteTime.word
  later : ∀ (t : DiscreteTime) (i : DiscreteInterval),
    add t.word i.word = (t.add i).map DiscreteTime.word
  earlier : ∀ (t : DiscreteTime) (i : DiscreteInterval),
    subtract t.word i.word = (t.subtract i).map DiscreteTime.word
  apart : ∀ t s : DiscreteTime, distance t.word s.word = (t.distance s).word
  longer : ∀ i j : DiscreteInterval,
    add? i.word j.word = (i.add j).toOption.map DiscreteInterval.word
  shorter : ∀ i j : DiscreteInterval,
    subtract? i.word j.word = (i.subtract j).toOption.map DiscreteInterval.word

theorem Word.agreement : Agreement where
  obtained_iff _ := Word.obtained_iff
  made := asTime_eq
  read := ofBytes_word
  later := add_word
  earlier := subtract_word
  apart := distance_word
  longer := add?_interval
  shorter := subtract?_interval

/-- **Discrete time is exact.** Whatever comes about as a time is not negative and fits
63 bits. Sums and differences, of times as of intervals, are those of the integers
where these are in range and are refused where they are not; what a step adds the same
step takes back; the distance of two times is that of their ticks, does not depend on
which comes first and leads from the earlier to the later; and a chain of shifts, those
that fail passed over, ends where the shifts that did not fail add up to. -/
theorem DiscreteTime.arithmetic_exact (a b : DiscreteTime) (i j : DiscreteInterval) (ms : List Shift) :
    (∀ w, Word.Obtained w → IsTime w.toInt) ∧ Word.Agreement ∧
    Exactly (fun t : DiscreteTime => t.ticks) IsTime (a.add i) (a.ticks + i.ticks) ∧
    Exactly (fun t : DiscreteTime => t.ticks) IsTime (a.subtract i) (a.ticks - i.ticks) ∧
    (∀ c, a.add i = .ok c ↔ c.subtract i = .ok a) ∧
    (a.distance b).ticks = |(a.ticks : Int) - b.ticks| ∧ a.distance b = b.distance a ∧
    (a.ticks ≤ b.ticks → a.add (a.distance b) = .ok b) ∧
    Exactly DiscreteInterval.ticks IsInterval (i.add j) (i.ticks + j.ticks) ∧
    Exactly DiscreteInterval.ticks IsInterval (i.subtract j) (i.ticks - j.ticks) ∧
    (Shift.made a ms).Sublist ms ∧
    ((Shift.chain a ms).ticks : Int) = a.ticks + ((Shift.made a ms).map Shift.amount).sum := by
  refine ⟨?_, Word.agreement, a.exactly_add i, a.exactly_subtract i,
    fun c => add_eq_ok_iff_subtract, ticks_distance a b, distance_comm a b, add_distance,
    i.exactly_add j, i.exactly_subtract j, Shift.made_sublist a ms, Shift.ticks_chain a ms⟩
  intro w hw
  obtain ⟨t, rfl⟩ := Word.obtained_iff.mp hw
  rw [Word.toInt_time]
  exact t.isTime

/-- From the initial time the least interval leads nowhere, and of a chain of five shifts
that meets both ends of time only the second is made. -/
theorem DiscreteTime.arithmetic_exact_from_initial :
    (¬ ∃ c, initial.add ⟨-0x8000000000000000, by decide, by decide⟩ = .ok c) ∧
    IsTime Int64.maxValue.toInt ∧ initial.add (initial.distance final) = .ok final ∧
    (Shift.chain initial [.back .epsilon, .forth ⟨7, by decide, by decide⟩,
      .forth (initial.distance final), .back ⟨-0x8000000000000000, by decide, by decide⟩,
      .forth ⟨-0x8000000000000000, by decide, by decide⟩]).ticks = (7 : Int) := by
  obtain ⟨range, -, add, -, -, -, -, apart, -, -, -, chain⟩ := DiscreteTime.arithmetic_exact initial final
    ⟨-0x8000000000000000, by decide, by decide⟩ .zero [.back .epsilon,
      .forth ⟨7, by decide, by decide⟩, .forth (initial.distance final),
      .back ⟨-0x8000000000000000, by decide, by decide⟩,
      .forth ⟨-0x8000000000000000, by decide, by decide⟩]
  refine ⟨fun later => ?_, range _ .final, apart (by decide), chain⟩
  exact absurd (add.succeeds_iff.mp later).1 (by decide)

end Federate
