/-
Times and intervals in comparison. A value is told by its family and its word, and
is compared with others of its family by the place of the word (`Scale.Lawful`).
From this follows what the comparison has to do with equality, hashing and the
bytes, for both families and for times and intervals alike (`Scale.Coherent`), and
that an ordered set of times has one entry for each pattern of bytes (`Time.Kept`).
-/
import Federate.Proofs.Time.Ascending
import Federate.Proofs.Time.Places
import Federate.Proofs.Time.TotalOrder
namespace Federate

/-! ## Scales -/

/-- Values of two families: times, or intervals. -/
structure Scale (α : Type) where
  family : α → TimeFamily
  cmp : α → α → Except Fault Ordering
  same : α → α → Bool
  hashed : α → TimeFamily × UInt64
  bytes : α → Bytes
  text : α → String
  /-- As what a comparison of values of two families is refused. -/
  mixed : Fault.Kind

namespace Scale

def times : Scale Time where
  family := Time.family
  cmp := Time.cmp
  same := Time.same
  hashed := Time.hashed
  bytes := Time.bytes
  text := Time.text
  mixed := .invalidLogicalTime

def intervals : Scale Interval where
  family := Interval.family
  cmp := Interval.cmp
  same := Interval.same
  hashed := Interval.hashed
  bytes := Interval.bytes
  text := Interval.text
  mixed := .invalidLogicalTimeInterval

variable {α : Type} {s : Scale α}

/-- The place of a value within its family. -/
def place (s : Scale α) (a : α) : Int := (s.family a).place (s.hashed a).2

/-- Values are told by their family and their word, and are compared by its place. -/
structure Lawful (s : Scale α) : Prop where
  hashed_fst : ∀ a, (s.hashed a).1 = s.family a
  bytes_eq : ∀ a, s.bytes a = Bytes.ofUInt64 (s.hashed a).2
  hashed_inj : ∀ a b, s.hashed a = s.hashed b ↔ a = b
  same_iff : ∀ a b, s.same a b = true ↔ a = b
  cmp_eq : ∀ a b, s.family a = s.family b → s.cmp a b = .ok (compare (s.place a) (s.place b))
  cmp_mixed : ∀ a b, s.family a ≠ s.family b →
    s.cmp a b = .error (.known s.mixed ("cannot combine " ++ s.text a ++ " with " ++ s.text b))
  every : ∀ w, ∃ a, s.hashed a = (.continuous, w)

/-- The first value is compared to be no higher than the second. -/
def AtMost (s : Scale α) (a b : α) : Prop := ∃ o, s.cmp a b = .ok o ∧ o ≠ .gt

/-- What comparison, equality, hashing and bytes have to do with each other. -/
structure Coherent (s : Scale α) : Prop where
  /-- Values of one family can be compared. -/
  compared : ∀ a b, s.family a = s.family b → ∃ o, s.cmp a b = .ok o
  /-- Values of two families cannot, whichever comes first. -/
  refused : ∀ a b, s.family a ≠ s.family b →
    s.cmp a b = .error (.known s.mixed ("cannot combine " ++ s.text a ++ " with " ++ s.text b))
  swap : ∀ a b o, s.cmp a b = .ok o → s.cmp b a = .ok o.swap
  antisymm : ∀ a b, s.AtMost a b → s.AtMost b a → a = b
  trans : ∀ a b c, s.AtMost a b → s.AtMost b c → s.AtMost a c
  total : ∀ a b, s.family a = s.family b → s.AtMost a b ∨ s.AtMost b a
  equal_iff_same : ∀ a b, s.cmp a b = .ok .eq ↔ s.same a b = true
  same_iff_bytes : ∀ a b, s.family a = s.family b → (s.same a b = true ↔ s.bytes a = s.bytes b)
  hashed_of_same : ∀ a b, s.same a b = true → s.hashed a = s.hashed b
  eight : ∀ a, (s.bytes a).length = 8
  /-- Every pattern of eight bytes is one of a continuous value. -/
  patterns : ∀ bs : Bytes, bs.length = 8 → ∃ a, s.family a = .continuous ∧ s.bytes a = bs
  /-- Behind a clear sign bit the order is that of the bytes. -/
  clear : ∀ a b, s.family a = s.family b → ¬ (s.bytes a).Signed → ¬ (s.bytes b).Signed →
    (s.cmp a b = .ok .lt ↔ s.bytes a < s.bytes b)
  /-- What has the sign bit set comes before what has it clear. -/
  across : ∀ a b, s.family a = s.family b → (s.bytes a).Signed → ¬ (s.bytes b).Signed →
    s.cmp a b = .ok .lt
  /-- Behind a set sign bit the order of continuous values is that of the bytes reversed. -/
  reversed : ∀ a b, s.family a = .continuous → s.family b = .continuous → (s.bytes a).Signed →
    (s.bytes b).Signed → (s.cmp a b = .ok .lt ↔ s.bytes b < s.bytes a)
  /-- Discrete values are ordered like the signed numbers in their bytes. -/
  signed : ∀ a b, s.family a = .discrete → s.family b = .discrete →
    s.cmp a b = .ok (compare (s.bytes a).toInt (s.bytes b).toInt)
  /-- Continuous values are in the total order of their bits. -/
  ranked : ∀ a b, s.family a = .continuous → s.family b = .continuous →
    (s.AtMost a b ↔ Double.TotalOrder (s.hashed a).2 (s.hashed b).2)

namespace Lawful

theorem eq_iff (h : s.Lawful) {a b : α} :
    a = b ↔ s.family a = s.family b ∧ s.place a = s.place b := by
  constructor
  · rintro rfl
    exact ⟨rfl, rfl⟩
  · rintro ⟨family, same⟩
    refine (h.hashed_inj a b).mp (Prod.ext ?_ ?_)
    · rw [h.hashed_fst, h.hashed_fst, family]
    · unfold place at same
      rw [family] at same
      exact TimeFamily.place_inj.mp same

theorem family_of_cmp (h : s.Lawful) {a b : α} {o : Ordering} (compared : s.cmp a b = .ok o) :
    s.family a = s.family b := by
  by_contra other
  rw [h.cmp_mixed a b other] at compared
  cases compared

theorem cmp_eq_ok_iff (h : s.Lawful) {a b : α} {o : Ordering} :
    s.cmp a b = .ok o ↔ s.family a = s.family b ∧ compare (s.place a) (s.place b) = o := by
  constructor
  · intro compared
    have family := h.family_of_cmp compared
    rw [h.cmp_eq a b family, Except.ok.injEq] at compared
    exact ⟨family, compared⟩
  · rintro ⟨family, rfl⟩
    exact h.cmp_eq a b family

theorem atMost_iff (h : s.Lawful) {a b : α} :
    s.AtMost a b ↔ s.family a = s.family b ∧ s.place a ≤ s.place b := by
  unfold AtMost
  simp only [h.cmp_eq_ok_iff]
  constructor
  · rintro ⟨o, ⟨family, rfl⟩, low⟩
    exact ⟨family, Int.compare_ne_gt.mp low⟩
  · rintro ⟨family, low⟩
    exact ⟨_, ⟨family, rfl⟩, Int.compare_ne_gt.mpr low⟩

theorem cmp_eq_lt_iff (h : s.Lawful) {a b : α} (family : s.family a = s.family b) :
    s.cmp a b = .ok .lt ↔ s.place a < s.place b := by
  rw [h.cmp_eq_ok_iff, Int.compare_eq_lt]
  exact and_iff_right family

theorem signed_iff (h : s.Lawful) {a : α} :
    (s.bytes a).Signed ↔ 0x8000000000000000 ≤ (s.hashed a).2.toNat := by
  rw [h.bytes_eq, Bytes.signed_ofUInt64_iff]

theorem bytes_inj (h : s.Lawful) {a b : α} (family : s.family a = s.family b) :
    s.bytes a = s.bytes b ↔ a = b := by
  rw [h.eq_iff, h.bytes_eq, h.bytes_eq, Bytes.ofUInt64_inj, place, place, family,
    TimeFamily.place_inj]
  exact (and_iff_right rfl).symm

theorem place_eq {a : α} {f : TimeFamily} (family : s.family a = f) :
    s.place a = f.place (s.hashed a).2 := by
  rw [place, family]

/-- Values told by their family and word compare as they should. -/
theorem coherent (h : s.Lawful) : s.Coherent where
  compared a b family := ⟨_, h.cmp_eq a b family⟩
  refused := h.cmp_mixed
  swap a b o compared := by
    obtain ⟨family, rfl⟩ := h.cmp_eq_ok_iff.mp compared
    rw [h.cmp_eq b a family.symm, Int.compare_swap]
  antisymm a b low low' := by
    obtain ⟨family, le⟩ := h.atMost_iff.mp low
    obtain ⟨-, le'⟩ := h.atMost_iff.mp low'
    exact h.eq_iff.mpr ⟨family, Int.le_antisymm le le'⟩
  trans a b c low low' := by
    obtain ⟨family, le⟩ := h.atMost_iff.mp low
    obtain ⟨family', le'⟩ := h.atMost_iff.mp low'
    exact h.atMost_iff.mpr ⟨family.trans family', Int.le_trans le le'⟩
  total a b family := by
    rcases Int.le_total (s.place a) (s.place b) with le | le
    · exact .inl (h.atMost_iff.mpr ⟨family, le⟩)
    · exact .inr (h.atMost_iff.mpr ⟨family.symm, le⟩)
  equal_iff_same a b := by
    rw [h.cmp_eq_ok_iff, Int.compare_eq_eq, h.same_iff, h.eq_iff]
  same_iff_bytes a b family := by rw [h.same_iff, h.bytes_inj family]
  hashed_of_same a b same := congrArg s.hashed ((h.same_iff a b).mp same)
  eight a := by rw [h.bytes_eq, Bytes.length_ofUInt64]
  patterns bs length := by
    obtain ⟨a, ha⟩ := h.every (UInt64.ofNat bs.toNat)
    refine ⟨a, ?_, ?_⟩
    · rw [← h.hashed_fst, ha]
    · rw [h.bytes_eq, ha, Bytes.ofUInt64_toNat length]
  clear a b family ha hb := by
    rw [h.signed_iff] at ha hb
    rw [h.cmp_eq_lt_iff family, h.bytes_eq, h.bytes_eq, Bytes.ofUInt64_lt_iff, place_eq family,
      place_eq rfl]
    exact TimeFamily.place_lt_of_clear ha hb
  across a b family ha hb := by
    rw [h.signed_iff] at ha hb
    rw [h.cmp_eq_lt_iff family, place_eq family, place_eq rfl]
    exact TimeFamily.place_lt_across ha hb
  reversed a b family family' ha hb := by
    rw [h.signed_iff] at ha hb
    rw [h.cmp_eq_lt_iff (family.trans family'.symm), h.bytes_eq, h.bytes_eq, Bytes.ofUInt64_lt_iff,
      place_eq family, place_eq family']
    exact TimeFamily.place_lt_of_set ha hb
  signed a b family family' := by
    rw [h.cmp_eq a b (family.trans family'.symm), h.bytes_eq, h.bytes_eq, Bytes.toInt_ofUInt64,
      Bytes.toInt_ofUInt64, place_eq family, place_eq family']
    rfl
  ranked a b family family' := by
    rw [h.atMost_iff, Double.totalOrder_iff, Double.cmp, Nat.compare_ne_gt, place_eq family,
      place_eq family', family, family']
    exact (and_iff_right rfl).trans Int.ofNat_le

end Lawful

/-! ## The two scales -/

theorem lawful_times : times.Lawful where
  hashed_fst a := by cases a <;> rfl
  bytes_eq a := by
    cases a with
    | discrete t => exact t.bytes_eq
    | continuous t => rfl
  hashed_inj a b := by
    cases a <;> cases b <;>
      simp [times, Time.hashed, DiscreteTime.hashed_inj, ContinuousTime.bits_inj]
  same_iff a b := by
    cases a <;> cases b <;> simp [times, Time.same, ContinuousTime.cmp_eq_eq_iff]
  cmp_eq a b family := by
    cases a <;> cases b
    case discrete.discrete t u => exact congrArg Except.ok (t.cmp_eq u)
    case continuous.continuous t u => exact congrArg Except.ok (Double.cmp_eq t.bits u.bits)
    all_goals cases family
  cmp_mixed a b family := by
    cases a <;> cases b
    case discrete.continuous => rfl
    case continuous.discrete => rfl
    all_goals exact absurd rfl family
  every w := ⟨.continuous ⟨w⟩, rfl⟩

theorem lawful_intervals : intervals.Lawful where
  hashed_fst a := by cases a <;> rfl
  bytes_eq a := by
    cases a with
    | discrete i => exact i.bytes_eq
    | continuous i => rfl
  hashed_inj a b := by
    cases a <;> cases b <;>
      simp [intervals, Interval.hashed, DiscreteInterval.hashed_inj, ContinuousInterval.bits_inj]
  same_iff a b := by
    cases a <;> cases b <;> simp [intervals, Interval.same, ContinuousInterval.cmp_eq_eq_iff]
  cmp_eq a b family := by
    cases a <;> cases b
    case discrete.discrete i j => exact congrArg Except.ok (i.cmp_eq j)
    case continuous.continuous i j => exact congrArg Except.ok (Double.cmp_eq i.bits j.bits)
    all_goals cases family
  cmp_mixed a b family := by
    cases a <;> cases b
    case discrete.continuous => rfl
    case continuous.discrete => rfl
    all_goals exact absurd rfl family
  every w := ⟨.continuous ⟨w⟩, rfl⟩

end Scale

/-! ## Ordered sets of times -/

instance : Std.TransCmp DiscreteTime.cmp :=
  inferInstanceAs (Std.TransCmp (compareOn DiscreteTime.ticks))

instance : Std.LawfulEqCmp DiscreteTime.cmp where
  compare_self := Nat.compare_eq_eq.mpr rfl
  eq_of_compare h := DiscreteTime.ext (Nat.compare_eq_eq.mp h)

instance : Std.TransCmp ContinuousTime.cmp :=
  inferInstanceAs (Std.TransCmp (compareOn fun t : ContinuousTime => Double.rank t.bits))

instance : Std.LawfulEqCmp ContinuousTime.cmp where
  compare_self := ContinuousTime.cmp_eq_eq_iff.mpr rfl
  eq_of_compare h := ContinuousTime.cmp_eq_eq_iff.mp h

namespace Time

/-- What an ordered set keeps of the values of one family that are put into it. -/
structure Kept {α : Type} (cmp : α → α → Ordering) (time : α → Time) (as : List α) : Prop where
  /-- One entry for each pattern of bytes among the values, and no other. -/
  once : ∀ bs : Bytes, ((ordered cmp as).map fun a => (time a).bytes).count bs =
    if bs ∈ as.map fun a => (time a).bytes then 1 else 0
  /-- Each entry comes before all that follow it. -/
  ascending : (ordered cmp as).Pairwise fun a b => (time a).cmp (time b) = .ok .lt
  /-- Whatever has the same patterns, in whatever order and number, is kept as the same. -/
  forgets : ∀ as' : List α, (∀ bs, (bs ∈ as'.map fun a => (time a).bytes) ↔
    bs ∈ as.map fun a => (time a).bytes) → ordered cmp as' = ordered cmp as

section

variable {α : Type} {cmp : α → α → Ordering} {time : α → Time}

/-- Values of one family are told by their bytes. -/
theorem bytes_inj (compared : ∀ a b, (time a).cmp (time b) = .ok (cmp a b))
    (inj : Function.Injective time) {a b : α} : (time a).bytes = (time b).bytes ↔ a = b := by
  have family := Scale.lawful_times.family_of_cmp (compared a b)
  exact (Scale.lawful_times.bytes_inj family).trans inj.eq_iff

theorem kept [Std.TransCmp cmp] [Std.LawfulEqCmp cmp]
    (compared : ∀ a b, (time a).cmp (time b) = .ok (cmp a b))
    (inj : Function.Injective time) (as : List α) : Kept cmp time as where
  once bs := by
    have distinct : ((ordered cmp as).map fun a => (time a).bytes).Nodup :=
      List.Nodup.map (fun _ _ => (bytes_inj compared inj).mp) (ascending_ordered as).nodup
    rw [distinct.count]
    simp only [List.mem_map, mem_ordered]
  ascending := by
    have sorted : Ascending cmp (ordered cmp as) := ascending_ordered as
    refine sorted.imp fun {a b} before => ?_
    rw [compared, before]
  forgets as' same := by
    -- A value is in either list exactly when its pattern is.
    have mem : ∀ (list : List α) (a : α),
        (time a).bytes ∈ list.map (fun b => (time b).bytes) ↔ a ∈ list := by
      intro list a
      simp only [List.mem_map, bytes_inj compared inj, exists_eq_right]
    refine ordered_congr fun a => ?_
    rw [← mem as' a, ← mem as a]
    exact same _

end

/-- **Comparison goes with equality, hashing and the bytes.** Within a family, times and
intervals are in a total order, in which those and only those are equal that are taken as
equal and that have the same bytes; they are hashed alike. Behind a clear sign bit, which
every discrete time has, the order is that of the bytes, and what has the bit set comes
first: of continuous values the other way round, of discrete intervals by the signed number.
A continuous value may have any bits whatever, and it stands where IEEE 754 puts them. Values
of two families are never ordered. So an ordered set of times keeps one of each pattern of
bytes, in ascending order, however they are put in. -/
theorem comparison_coherent :
    Scale.times.Coherent ∧ Scale.intervals.Coherent ∧
    (∀ t : DiscreteTime, ¬ t.bytes.Signed) ∧
    (∀ ts : List DiscreteTime, Kept DiscreteTime.cmp .discrete ts) ∧
    ∀ ts : List ContinuousTime, Kept ContinuousTime.cmp .continuous ts :=
  ⟨Scale.lawful_times.coherent, Scale.lawful_intervals.coherent, DiscreteTime.not_signed,
    kept (fun _ _ => rfl) fun _ _ => discrete.inj,
    kept (fun _ _ => rfl) fun _ _ => continuous.inj⟩

/-- The negative zero comes before the other one and is not taken as equal to it; neither is
ordered against the discrete zero; and of both zeros and a value that is no number a set is
the same whichever comes first and however often. -/
theorem comparison_coherent_zeros :
    cmp (.continuous ⟨0x8000000000000000⟩) (.continuous ⟨0⟩) = .ok .lt ∧
    same (.continuous ⟨0x8000000000000000⟩) (.continuous ⟨0⟩) = false ∧
    cmp (.discrete .initial) (.continuous ⟨0⟩) = .error (.known .invalidLogicalTime
      ("cannot combine " ++ DiscreteTime.initial.text ++ " with " ++ ContinuousTime.initial.text)) ∧
    ordered ContinuousTime.cmp [⟨0⟩, ⟨0x7FF8000000000001⟩, ⟨0x8000000000000000⟩, ⟨0⟩] =
      ordered ContinuousTime.cmp [⟨0x8000000000000000⟩, ⟨0⟩, ⟨0x7FF8000000000001⟩] := by
  obtain ⟨times, -, -, -, kept⟩ := comparison_coherent
  have before := times.across (.continuous ⟨0x8000000000000000⟩) (.continuous ⟨0⟩) rfl
    (by decide) (by decide)
  refine ⟨before, ?_, times.refused (.discrete .initial) (.continuous ⟨0⟩) (by decide), ?_⟩
  · refine Bool.eq_false_iff.mpr fun same => ?_
    have equal := (times.equal_iff_same (.continuous ⟨0x8000000000000000⟩)
      (.continuous ⟨0⟩)).mpr same
    rw [before] at equal
    cases equal
  · refine (kept _).forgets _ fun bs => ?_
    simp only [List.map_cons, List.map_nil, List.mem_cons, List.not_mem_nil, or_false]
    tauto

end Time

end Federate
