/-
Values laid into buffers. In memory a value is laid in place: the end of its
stretch is computed in a word, the stretch is looked for in the buffer, and only
then are its bytes stored there one after another (`Item.encode`). That comes to
what encoding into a byte string comes to, for every kind of value (`encode_eq`),
and nothing outside the stretch moves (`getElem?_store_of_outside`).
-/
import Federate.Time
import Federate.Handle.Region
import Federate.Handle.Transportation
import Federate.Proofs.Codec.Shapes
namespace Federate

/-! ## Storing in place -/

namespace Bytes

/-- Bytes stored one after another from a place on. -/
def store (bs : Bytes) (place : Nat) : Bytes → Bytes
  | [] => bs
  | b :: rest => store (bs.set place b) (place + 1) rest

@[simp] theorem length_store (bs : Bytes) (place : Nat) (patch : Bytes) :
    (bs.store place patch).length = bs.length := by
  induction patch generalizing bs place with
  | nil => rfl
  | cons b rest ih => rw [store, ih, List.length_set]

/-- A store leaves what lies before its first byte and what lies behind its last. -/
theorem getElem?_store_of_outside {bs patch : Bytes} {place p : Nat}
    (h : p < place ∨ place + patch.length ≤ p) : (bs.store place patch)[p]? = bs[p]? := by
  induction patch generalizing bs place with
  | nil => rfl
  | cons b rest ih =>
    rw [List.length_cons] at h
    rw [store, ih (by omega), List.getElem?_set_ne (by omega)]

theorem store_eq {bs patch : Bytes} {place : Nat} (fits : place + patch.length ≤ bs.length) :
    bs.store place patch = bs.take place ++ patch ++ bs.drop (place + patch.length) := by
  induction patch generalizing bs place with
  | nil => exact (by simp : bs = bs.take place ++ [] ++ bs.drop (place + 0))
  | cons b rest ih =>
    rw [List.length_cons] at fits
    have before : (bs.set place b).take (place + 1) = bs.take place ++ [b] := by
      rw [List.take_add_one, List.getElem?_set_self (by omega), List.take_set_of_le (Nat.le_refl _)]
      rfl
    have behind : (bs.set place b).drop (place + 1 + rest.length) =
        bs.drop (place + (b :: rest).length) := by
      rw [List.drop_set_of_lt (by omega), List.length_cons, Nat.add_assoc, Nat.add_comm 1]
    rw [store, ih (by rw [List.length_set]; omega), before, behind, List.append_assoc,
      List.append_assoc, List.append_assoc, List.singleton_append, List.cons_append]

/-- What is laid over a byte string is what is stored in it. -/
theorem overwrite?_eq (bs : Bytes) (place : Nat) (patch : Bytes) :
    bs.overwrite? place patch =
      if place + patch.length ≤ bs.length then some (bs.store place patch) else none := by
  unfold overwrite?
  split
  · next fits => rw [store_eq fits]
  · rfl

theorem slice?_store {bs patch : Bytes} {place : Nat} (fits : place + patch.length ≤ bs.length) :
    (bs.store place patch).slice? place patch.length = some patch :=
  slice?_overwrite? ((overwrite?_eq bs place patch).trans (if_pos fits))

/-- A stretch is what is left of a byte string that is cut where the stretch ends. -/
theorem from?_take_of_slice? {bs out : Bytes} {offset length : Nat}
    (h : bs.slice? offset length = some out) : from? (bs.take (offset + length)) offset = some out := by
  unfold slice? at h
  split at h
  · next fits =>
    cases h
    rw [from?, if_pos (by rw [List.length_take]; omega), List.drop_take, Nat.add_sub_cancel_left]
  · cases h

end Bytes

/-- A buffer in memory, no longer than a word can count. -/
structure Buffer where
  bytes : Bytes
  length_lt : bytes.length < 0x10000000000000000

namespace Buffer

/-- The end of a stretch, unless it lies beyond what a word can hold. -/
def stop? (offset : UInt64) (length : Nat) : Option UInt64 :=
  if offset.toNat + length < 0x10000000000000000 then some (offset + .ofNat length) else none

/-- Bytes stored in the stretch of a buffer that is theirs from an offset on, if it has one. -/
def put? (buffer : Buffer) (offset : UInt64) (patch : Bytes) : Option Buffer :=
  match stop? offset patch.length with
  | some stop =>
    if offset ≤ stop ∧ stop.toNat ≤ buffer.bytes.length then
      some ⟨buffer.bytes.store offset.toNat patch, by simpa using buffer.length_lt⟩
    else none
  | none => none

theorem toNat_of_stop? {offset stop : UInt64} {length : Nat} (h : stop? offset length = some stop) :
    stop.toNat = offset.toNat + length := by
  unfold stop? at h
  split at h
  · next small =>
    cases h
    have word : (UInt64.ofNat length).toNat = length := UInt64.toNat_ofNat_of_lt' (by
      change length < 0x10000000000000000
      omega)
    rw [UInt64.toNat_add, word]
    exact Nat.mod_eq_of_lt small
  · cases h

/-- There is room where the stretch ends within the buffer, and nowhere else. -/
theorem put?_eq (buffer : Buffer) (offset : UInt64) (patch : Bytes) :
    buffer.put? offset patch =
      if offset.toNat + patch.length ≤ buffer.bytes.length then
        some ⟨buffer.bytes.store offset.toNat patch, by simpa using buffer.length_lt⟩
      else none := by
  have short := buffer.length_lt
  unfold put?
  cases h : stop? offset patch.length with
  | some stop =>
    have value := toNat_of_stop? h
    have order : offset ≤ stop := UInt64.le_iff_toNat_le.mpr (by omega)
    simp only [order, value, true_and]
  | none =>
    -- An end that no word holds lies behind the end of every buffer.
    have far : ¬ offset.toNat + patch.length ≤ buffer.bytes.length := by
      intro fits
      unfold stop? at h
      rw [if_pos (by omega)] at h
      cases h
    rw [if_neg far]

end Buffer

/-! ## Values with a place in a buffer -/

/-- What can be laid into a buffer: times, intervals, handles, and registered regions by
their handle. -/
inductive Item where
  | time (t : Time)
  | interval (i : Interval)
  | handle {k : Handle.Kind} (h : Handle k)
  | transportation (t : Transportation)
  | region (h : Handle .region)

namespace Item

def bytes : Item → Bytes
  | time t => t.bytes
  | interval i => i.bytes
  | handle h => h.bytes
  | transportation t => t.bytes
  | region h => h.bytes

/-- How many bytes an item takes. -/
def size : Item → Nat
  | time _ | interval _ => 8
  | handle h => h.bytes.length
  | transportation _ => 4
  | region h => h.bytes.length

/-- What an item is refused with by a buffer of some length that has no room for it. -/
def refusal (offset length : Nat) : Item → Fault
  | time _ | interval _ =>
    .couldNotEncode s!"need 8 bytes at offset {offset}, buffer holds {length}"
  | handle (k := k) h => .couldNotEncode (k.typeName ++
      s!" needs {h.bytes.length} bytes at offset {offset}, buffer holds {length}")
  | transportation _ =>
    .couldNotEncode s!"transportation type needs 4 bytes at offset {offset}"
  | region h => .couldNotEncode (Handle.Kind.region.typeName ++
      s!" needs {h.bytes.length} bytes at offset {offset}, buffer holds {length}")

def encodeAt (x : Item) (buffer : Bytes) (offset : Nat) : Except Fault Bytes :=
  match x with
  | time t => t.encodeAt buffer offset
  | interval i => i.encodeAt buffer offset
  | handle h => h.encodeAt buffer offset
  | transportation t => t.encodeAt buffer offset
  | region h => (Region.registered h).encodeAt buffer offset

/-- The item of the same kind, family and type that is read from a buffer at an offset. -/
def decodeAt (x : Item) (buffer : Bytes) (offset : Nat) : Except Fault Item :=
  match x with
  | time t => (t.family.decodeTimeAt buffer offset).map time
  | interval i => (i.family.decodeIntervalAt buffer offset).map interval
  | handle (k := k) _ => (Handle.decodeAt k buffer offset).map handle
  | transportation _ => (Transportation.decodeAt buffer offset).map transportation
  | region _ => (Handle.decodeAt .region buffer offset).map region

/-- As much of a buffer as is given to the one who reads the item from it: a time and an
interval are found by their offset, the others must end where the buffer ends. -/
def shown (x : Item) (buffer : Bytes) (offset : Nat) : Bytes :=
  match x with
  | time _ | interval _ => buffer
  | handle _ | transportation _ | region _ => buffer.take (offset + x.size)

/-- An item laid into a buffer in place: how many bytes were written, and the buffer then. -/
def encode (x : Item) (buffer : Buffer) (offset : UInt64) : Except Fault Nat × Buffer :=
  match buffer.put? offset x.bytes with
  | some after => (.ok x.size, after)
  | none => (.error (x.refusal offset.toNat buffer.bytes.length), buffer)

theorem length_bytes (x : Item) : x.bytes.length = x.size := by
  cases x with
  | time t => cases t <;> exact Bytes.length_ofNat 8 _
  | interval i => cases i <;> exact Bytes.length_ofNat 8 _
  | handle h => rfl
  | transportation t => cases t <;> rfl
  | region h => rfl

theorem refusal_eq (offset length : Nat) (x : Item) :
    ∃ message, x.refusal offset length = .couldNotEncode message := by
  cases x <;> exact ⟨_, rfl⟩

theorem encodeAt_eq (x : Item) (buffer : Bytes) (offset : Nat) :
    x.encodeAt buffer offset = match buffer.overwrite? offset x.bytes with
      | some out => .ok out
      | none => .error (x.refusal offset buffer.length) := by
  cases x <;> rfl

/-- Where the bytes of an item stand, the item is read. -/
theorem decodeAt_of_slice? {x : Item} {buffer : Bytes} {offset : Nat}
    (stretch : buffer.slice? offset x.size = some x.bytes) :
    x.decodeAt (x.shown buffer offset) offset = .ok x := by
  have left := Bytes.from?_take_of_slice? stretch
  cases x with
  | time t =>
    rw [decodeAt, shown, TimeFamily.decodeTimeAt_of_slice? stretch]
    exact congrArg (Except.map time) (TimeFamily.timeOfBytes_bytes t)
  | interval i =>
    rw [decodeAt, shown, TimeFamily.decodeIntervalAt_of_slice? stretch]
    exact congrArg (Except.ok ∘ interval) (TimeFamily.intervalOfBytes_bytes i)
  | handle h =>
    rw [decodeAt, shown, Handle.decodeAt, left]
    exact congrArg (Except.map handle) h.ofBytes_bytes
  | transportation t =>
    rw [decodeAt, shown, Transportation.decodeAt, left]
    exact congrArg (Except.map transportation) t.ofBytes_bytes
  | region h =>
    rw [decodeAt, shown, Handle.decodeAt, left]
    exact congrArg (Except.map region) h.ofBytes_bytes

/-- What a buffer is after an item has been laid into it. -/
structure Laid (x : Item) (offset : Nat) (before after : Bytes) : Prop where
  length_eq : after.length = before.length
  inside : after.slice? offset x.size = some x.bytes
  outside : ∀ p, p < offset ∨ offset + x.size ≤ p → after[p]? = before[p]?
  decoded : x.decodeAt (x.shown after offset) offset = .ok x

theorem laid_store {x : Item} {offset : Nat} {before : Bytes}
    (fits : offset + x.size ≤ before.length) : x.Laid offset before (before.store offset x.bytes) := by
  rw [← x.length_bytes] at fits
  have inside : (before.store offset x.bytes).slice? offset x.size = some x.bytes := by
    rw [← x.length_bytes]
    exact Bytes.slice?_store fits
  refine ⟨Bytes.length_store _ _ _, inside, ?_, decodeAt_of_slice? inside⟩
  intro p hp
  rw [← x.length_bytes] at hp
  exact Bytes.getElem?_store_of_outside hp

/-- An item is stored where there is room for it, and else nothing is. -/
theorem encode_cases (x : Item) (buffer : Buffer) (offset : UInt64) :
    (offset.toNat + x.size ≤ buffer.bytes.length ∧ (x.encode buffer offset).1 = .ok x.size ∧
      (x.encode buffer offset).2.bytes = buffer.bytes.store offset.toNat x.bytes) ∨
    (¬ offset.toNat + x.size ≤ buffer.bytes.length ∧
      x.encode buffer offset = (.error (x.refusal offset.toNat buffer.bytes.length), buffer)) := by
  unfold encode
  rw [Buffer.put?_eq, x.length_bytes]
  by_cases fits : offset.toNat + x.size ≤ buffer.bytes.length
  · rw [if_pos fits]
    exact .inl ⟨fits, rfl, rfl⟩
  · rw [if_neg fits]
    exact .inr ⟨fits, rfl⟩

/-- In place an item is encoded as it is into a byte string, faults included. -/
theorem encode_eq (x : Item) (buffer : Buffer) (offset : UInt64) :
    x.encodeAt buffer.bytes offset.toNat =
      (x.encode buffer offset).1.map fun _ => (x.encode buffer offset).2.bytes := by
  rw [encodeAt_eq, Bytes.overwrite?_eq, x.length_bytes]
  obtain ⟨fits, done, after⟩ | ⟨short, refused⟩ := x.encode_cases buffer offset
  · rw [if_pos fits, done, after]
    rfl
  · rw [if_neg short, refused]
    rfl

/-- **Encoding at an offset touches exactly its own bytes.** It succeeds just where the
stretch that the item needs ends within the buffer, no matter how near the offset is to
the end of what a word can hold. Then as many bytes are written as the item takes: they
are its own, all others are as they were, and they are read as the same item again. Else
nothing is written, and the fault says that the item could not be encoded. -/
theorem encode_exact (x : Item) (buffer : Buffer) (offset : UInt64) :
    x.encodeAt buffer.bytes offset.toNat =
      ((x.encode buffer offset).1.map fun _ => (x.encode buffer offset).2.bytes) ∧
    ((∃ n, (x.encode buffer offset).1 = .ok n) ↔
      offset.toNat + x.size ≤ buffer.bytes.length) ∧
    (∀ n, (x.encode buffer offset).1 = .ok n →
      n = x.size ∧ x.Laid offset.toNat buffer.bytes (x.encode buffer offset).2.bytes) ∧
    (∀ e, (x.encode buffer offset).1 = .error e →
      (∃ message, e = .couldNotEncode message) ∧ (x.encode buffer offset).2 = buffer) := by
  refine ⟨x.encode_eq buffer offset, ?_⟩
  obtain ⟨fits, done, after⟩ | ⟨short, refused⟩ := x.encode_cases buffer offset
  · refine ⟨iff_of_true ⟨_, done⟩ fits, ?_, ?_⟩
    · intro n hn
      rw [done] at hn
      cases hn
      exact ⟨rfl, after ▸ laid_store fits⟩
    · intro e he
      rw [done] at he
      cases he
  · rw [refused]
    refine ⟨iff_of_false ?_ short, ?_, ?_⟩
    · rintro ⟨n, hn⟩
      cases hn
    · intro n hn
      cases hn
    · intro e he
      cases he
      exact ⟨x.refusal_eq _ _, rfl⟩

/-- A time that is no number fits ten bytes from the third on, and is read again as it was.
From an offset at which eight bytes more lead past the last word it is refused. -/
theorem encode_exact_nan :
    (∃ after, (time (.continuous ⟨0x7FF8000000000001⟩)).Laid 2 (.replicate 10 0xAA) after) ∧
    ¬ ∃ n, ((time (.continuous ⟨0x7FF8000000000001⟩)).encode
      ⟨.replicate 10 0xAA, by decide⟩ 0xFFFFFFFFFFFFFFFA).1 = .ok n := by
  have near := encode_exact (time (.continuous ⟨0x7FF8000000000001⟩))
    ⟨.replicate 10 0xAA, by decide⟩ 2
  have far := encode_exact (time (.continuous ⟨0x7FF8000000000001⟩))
    ⟨.replicate 10 0xAA, by decide⟩ 0xFFFFFFFFFFFFFFFA
  obtain ⟨-, room, written, -⟩ := near
  obtain ⟨n, hn⟩ := room.mpr (by decide)
  refine ⟨⟨_, (written n hn).2⟩, fun success => ?_⟩
  exact absurd (far.2.1.mp success) (by decide)

end Item

end Federate
