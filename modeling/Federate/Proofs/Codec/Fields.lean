/-
Payloads, field by field. A payload is made by putting one value after another
behind what it holds, and taken apart by reads in the same order. What was
written for a value is read as that value, at every shape and whatever follows;
so a whole payload is read back as the values that were put into it, with
nothing left over (`Field.round_trip`).
-/
import Federate.Proofs.Codec.Shapes
namespace Federate

open Bytes (capacity)

namespace Shape

/-- Has no value of the shape a time or an interval in it? -/
def timeless : Shape → Bool
  | .time | .interval | .info => false
  | .maybe s | .list s => s.timeless
  | .pair s t => s.timeless && t.timeless
  | _ => true

theorem families_of_timeless {s : Shape} (h : s.timeless = true) (v : s.Value) :
    s.families v = [] := by
  induction s with
  | time | interval | info => cases h
  | maybe s ih =>
    rw [families, List.flatMap_eq_nil_iff]
    exact fun a _ => ih h a
  | list s ih =>
    rw [families, List.flatMap_eq_nil_iff]
    exact fun a _ => ih h a
  | pair s t hs ht =>
    rw [timeless, Bool.and_eq_true] at h
    rw [families, hs h.1, ht h.2, List.append_nil]
  | _ => rfl

end Shape

/-- What is put into a payload, or read from it, in one go. A signed word is an interval of discrete
time, and a double one of continuous time. -/
inductive Field where
  | byte
  | word16
  | word64
  /-- So many bytes, as they are. -/
  | raw (size : Nat)
  /-- A value of a shape, its times in the settled family. -/
  | shape (family : Option TimeFamily) (s : Shape)

namespace Field

/-- The values of a field. -/
@[reducible] def Value : Field → Type
  | .byte => UInt8
  | .word16 => UInt16
  | .word64 => UInt64
  | .raw _ => Bytes
  | .shape _ s => s.Value

/-- The bytes of a value. -/
def write : (d : Field) → d.Value → Bytes
  | .byte, v => [v]
  | .word16, v => Bytes.ofUInt16 v
  | .word64, v => Bytes.ofUInt64 v
  | .raw _, v => v
  | .shape _ s, v => s.write v

def read : (d : Field) → Reader d.Value
  | .byte => Reader.byte
  | .word16 => Reader.word16
  | .word64 => Reader.word64
  | .raw n => Reader.take n
  | .shape f s => s.read f

/-- The value has the size that is asked for, no text, blob or collection in it is too long to be
counted, and its times are of the settled family. -/
def Fits : (d : Field) → d.Value → Prop
  | .raw n, v => v.length = n
  | .shape f s, v => s.Fits v ∧ ∀ g ∈ s.families v, f = some g
  | .byte, _ | .word16, _ | .word64, _ => True

theorem takes_read {d : Field} {v : d.Value} (fits : d.Fits v) : d.read.Takes (d.write v) v := by
  cases d with
  | byte => exact Reader.takes_byte v
  | word16 => exact Reader.takes_word16 v
  | word64 => exact Reader.takes_word64 v
  | raw n =>
    have size : List.length v = n := fits
    have taken := Reader.takes_take v
    rw [size] at taken
    exact taken
  | shape f s => exact Shape.takes_read fits.1 fits.2

/-! ## One field after another -/

/-- A field with a value for it. -/
abbrev Filled := Σ d : Field, d.Value

/-- A payload with one more value at its end. -/
def put (payload : Bytes) (x : Filled) : Bytes := payload ++ x.1.write x.2

/-- The payload into which some values have been put, one after another. -/
def written (xs : List Filled) : Bytes := xs.foldl put []

/-- Reads values for some fields, one after another. -/
def readAll : List Field → Reader (List Filled)
  | [] => pure []
  | d :: ds => do
    let v ← d.read
    let xs ← readAll ds
    pure (⟨d, v⟩ :: xs)

theorem foldl_put (payload : Bytes) (xs : List Filled) :
    xs.foldl put payload = payload ++ written xs := by
  induction xs generalizing payload with
  | nil => exact (List.append_nil payload).symm
  | cons x xs ih =>
    have first : written (x :: xs) = x.1.write x.2 ++ written xs := ih (put [] x)
    rw [List.foldl_cons, ih, first, put, List.append_assoc]

theorem written_cons (x : Filled) (xs : List Filled) :
    written (x :: xs) = x.1.write x.2 ++ written xs := foldl_put (put [] x) xs

/-- The values are taken up again, in the order in which they were put. -/
theorem takes_readAll {xs : List Filled} (fits : ∀ x ∈ xs, x.1.Fits x.2) :
    (readAll (xs.map Sigma.fst)).Takes (written xs) xs := by
  induction xs with
  | nil => exact .pure []
  | cons x xs ih =>
    have first : x.1.read.Takes (x.1.write x.2) x.2 := takes_read (fits x List.mem_cons_self)
    have later := ih fun y hy => fits y (List.mem_cons_of_mem x hy)
    rw [written_cons]
    exact first.bind (later.map fun ys => x :: ys)

/-- **What was written is read back.** A value of any shape without times is read from what was
written for it, whatever follows, and all that follows is left. Any values that were put into a
payload are read back by the same fields, and then nothing is left over. -/
theorem round_trip :
    (∀ (s : Shape) (v : s.Value) (family : Option TimeFamily) (rest : Bytes),
      s.timeless = true → s.Fits v → (s.read family).run (s.write v ++ rest) = (.ok v, rest)) ∧
    ∀ xs : List Filled, (∀ x ∈ xs, x.1.Fits x.2) →
      (readAll (xs.map Sigma.fst)).whole (written xs) = .ok xs := by
  constructor
  · intro s v family rest timeless fits
    have settled : ∀ g ∈ s.families v, family = some g := by
      rw [Shape.families_of_timeless timeless]
      exact nofun
    exact Shape.takes_read fits settled rest
  · intro xs fits
    exact Reader.whole_eq_ok.mpr (takes_readAll fits).run_alone

/-- Names with the sets of handles that they stand for, then two bytes as they are and a time. -/
def roster : List Filled :=
  [⟨.shape none (.list (.pair .text (.handles .attribute))),
      [("a", Handle.Table.empty.insert (.ofUInt32 2) ()), ("", .empty)]⟩,
   ⟨.raw 2, [7, 8]⟩,
   ⟨.shape (some .discrete) .time, Time.discrete .initial⟩]

theorem round_trip_roster :
    (∀ x ∈ roster, x.1.Fits x.2) ∧
    (readAll (roster.map Sigma.fst)).whole (written roster) = .ok roster ∧
    (Shape.read none (.list .flag)).run (Shape.write (.list .flag) [true, false] ++ [9]) =
      (.ok [true, false], [9]) := by
  have fits : ∀ x ∈ roster, x.1.Fits x.2 := by
    unfold roster
    simp only [List.forall_mem_cons]
    refine ⟨⟨by decide, nofun⟩, rfl, ⟨trivial, ?_⟩, nofun⟩
    intro g hg
    cases List.mem_singleton.mp hg
    rfl
  exact ⟨fits, round_trip.2 roster fits,
    round_trip.1 (.list .flag) [true, false] none [9] rfl (by decide)⟩

end Field

end Federate
