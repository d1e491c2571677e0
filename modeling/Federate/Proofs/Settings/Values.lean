/-
The texts of values. A number is spelt by decimal digits alone (`digits?_eq_some_iff`)
and a word in ASCII letters of either case (`map_toLower_eq_iff`). With these each
setting has its spellings (`Key.Spells`), which say nothing of how a text is read,
and a value is read from its spellings and from no other text
(`Key.read_eq_ok_iff`). The words for durations are left to their reader.
-/
import Mathlib
import Federate.Settings
namespace Federate.Settings

variable {words : Words} {cs : List Char}

/-! ## Letters -/

/-- Whether a text is a word, in ASCII letters of either case. -/
def InLetters (word : String) (cs : List Char) : Prop :=
  List.Forall₂ (fun c l => c = l ∨ c = l.toUpper) cs word.toList

theorem toLower_eq_iff {c l : Char} (small : l.isLower) :
    c.toLower = l ↔ c = l ∨ c = l.toUpper := by
  constructor
  · rintro rfl
    by_cases large : c.isUpper
    · have upper := c.toUpper_eq_of_not_isLower (Char.not_isLower_of_isUpper large)
      exact .inr (c.toUpper_toLower_eq_toUpper.trans upper).symm
    · exact .inl (Char.toLower_eq_of_not_isUpper large).symm
  · have lower := l.toLower_eq_of_not_isUpper (Char.not_isUpper_of_isLower small)
    rintro (rfl | rfl)
    · exact lower
    · exact l.toLower_toUpper_eq_toLower.trans lower

theorem map_toLower_eq_iff {word : String} (small : ∀ l ∈ word.toList, l.isLower) :
    cs.map Char.toLower = word.toList ↔ InLetters word cs := by
  rw [← List.forall₂_eq_eq_eq, List.forall₂_map_left_iff, InLetters]
  generalize word.toList = ls at small
  induction ls generalizing cs with
  | nil => cases cs <;> simp
  | cons l ls ih =>
    rw [List.forall_mem_cons] at small
    cases cs with
    | nil => simp
    | cons c cs =>
      rw [List.forall₂_cons, List.forall₂_cons, toLower_eq_iff small.1, ih small.2]

/-! ## Digits -/

/-- Whether a text spells a number in decimal digits. -/
def Numeral (n : Nat) (cs : List Char) : Prop :=
  cs ≠ [] ∧ (∀ c ∈ cs, c.isDigit) ∧ Nat.ofDigits 10 (cs.reverse.map (·.toNat - '0'.toNat)) = n

theorem ofDigits_reverse_eq (cs : List Char) :
    Nat.ofDigits 10 (cs.reverse.map (·.toNat - '0'.toNat)) =
      cs.foldl (fun n c => n * 10 + (c.toNat - 48)) 0 := by
  rw [Nat.ofDigits_eq_foldr, List.foldr_map, List.foldr_reverse]
  congr 1
  funext n c
  exact (Nat.add_comm ..).trans (congrArg (· + _) (Nat.mul_comm ..))

theorem digits?_eq_some_iff {n : Nat} : digits? cs = some n ↔ Numeral n cs := by
  have guard : (!cs.isEmpty && cs.all Char.isDigit) = true ↔ cs ≠ [] ∧ ∀ c ∈ cs, c.isDigit := by
    rw [Bool.and_eq_true, Bool.not_eq_true', List.isEmpty_eq_false_iff, List.all_eq_true]
  rw [digits?, Option.ite_none_right_eq_some, guard, Numeral, ofDigits_reverse_eq, and_assoc,
    Option.some.injEq]

theorem readNumber_eq_ok_iff {bound n : Nat} :
    readNumber bound cs = .ok n ↔ Numeral n cs ∧ n < bound := by
  rw [← digits?_eq_some_iff, readNumber]
  cases digits? cs with
  | none => simp
  | some m => grind

/-! ## Spellings -/

theorem readFlag_eq_ok_iff {b : Bool} :
    readFlag cs = .ok b ↔ InLetters (if b then "true" else "false") cs := by
  rw [← map_toLower_eq_iff (by cases b <;> simp), readFlag]
  have differ : "true".toList ≠ "false".toList := by simp
  cases b <;> grind

theorem readDuration_eq_ok_iff {d : Duration} :
    readDuration words cs = .ok d ↔
      (∃ n < 0x10000000000000000, Numeral n cs ∧ d = .ofSeconds n) ∨
      (∀ n, ¬ Numeral n cs) ∧ words cs = .ok d := by
  simp only [← digits?_eq_some_iff, readDuration]
  cases digits? cs with
  | none => simp
  | some n => grind

theorem ofText_eq_ok_iff {p : Protocol} :
    Protocol.ofText (String.ofList cs) = .ok p ↔ InLetters p.name cs := by
  have named : Protocol.ofName? ((String.ofList cs).map Char.toLower) = some p ↔
      cs.map Char.toLower = p.name.toList := by
    rw [← String.toList_ofList (l := cs), ← String.toList_map, String.toList_inj,
      String.toList_ofList]
    constructor
    · intro found
      have same := List.find?_some found
      exact (beq_iff_eq.mp same).symm
    · intro spelt
      rw [spelt, Protocol.ofName?_name]
  rw [← map_toLower_eq_iff (by cases p <;> simp [Protocol.name]), ← named, Protocol.ofText]
  cases Protocol.ofName? ((String.ofList cs).map Char.toLower) <;> simp

/-- The spellings of what a setting holds. -/
def Key.Spells (words : Words) : (k : Key) → k.Value → List Char → Prop
  | .heartbeatInterval, d, cs | .responseTimeout, d, cs | .reconnectLimit, d, cs
  | .connectTimeout, d, cs =>
    (∃ n < 0x10000000000000000, Numeral n cs ∧ d = .ofSeconds n) ∨
      (∀ n, ¬ Numeral n cs) ∧ words cs = .ok d
  | .asyncUpdates, b, cs | .rateLimited, b, cs => InLetters (if b then "true" else "false") cs
  | .host, h, cs => h ≠ "" ∧ h.toList = cs
  | .port, n, cs => Numeral n.toNat cs
  | .protocol, p, cs => InLetters p.name cs
  | .maxRetryAttempts, n, cs | .messageQueueSize, n, cs => Numeral n.toNat cs

theorem word_eq_ok_iff {bound : Nat} {α : Type} {ofNat : Nat → α} {toNat : α → Nat}
    (fits : ∀ a, toNat a < bound) (toNat_ofNat : ∀ n < bound, toNat (ofNat n) = n)
    (ofNat_toNat : ∀ a, ofNat (toNat a) = a) {v : α} :
    (do return ofNat (← readNumber bound cs)) = Except.ok v ↔ Numeral (toNat v) cs := by
  have of_read : (do return ofNat (← readNumber bound cs)) = Except.ok v ↔
      ∃ n, readNumber bound cs = .ok n ∧ ofNat n = v := by
    cases readNumber bound cs <;> simp
  rw [of_read]
  constructor
  · rintro ⟨n, read, rfl⟩
    obtain ⟨numeral, small⟩ := readNumber_eq_ok_iff.mp read
    rwa [toNat_ofNat n small]
  · intro numeral
    exact ⟨toNat v, readNumber_eq_ok_iff.mpr ⟨numeral, fits v⟩, ofNat_toNat v⟩

/-- A value is read from its spellings and from nothing else. -/
theorem Key.read_eq_ok_iff {k : Key} {v : k.Value} :
    k.read words cs = .ok v ↔ k.Spells words v cs := by
  cases k with
  | heartbeatInterval | responseTimeout | reconnectLimit | connectTimeout =>
    exact readDuration_eq_ok_iff
  | asyncUpdates | rateLimited => exact readFlag_eq_ok_iff
  | host =>
    have empty : cs.isEmpty ↔ String.ofList cs = "" := by
      rw [List.isEmpty_iff, ← String.toList_inj, String.toList_ofList]
      rfl
    have spelt : v.toList = cs ↔ String.ofList cs = v := by
      rw [← String.toList_inj, String.toList_ofList, eq_comm]
    rw [Key.Spells, spelt, Key.read]
    grind
  | port =>
    exact word_eq_ok_iff (fun n => n.toNat_lt)
      (fun n small => UInt16.toNat_ofNat_of_lt' small) fun n => UInt16.ofNat_toNat
  | protocol =>
    rw [Key.Spells, ← ofText_eq_ok_iff, Key.read]
    cases Protocol.ofText (String.ofList cs) <;> simp
  | maxRetryAttempts | messageQueueSize =>
    exact word_eq_ok_iff (fun n => n.toNat_lt)
      (fun n small => UInt32.toNat_ofNat_of_lt' small) fun n => UInt32.ofNat_toNat

end Federate.Settings
