/-
Reading values from the front of a byte string. A reader yields a value or a
fault and leaves the bytes that it did not consume; a reader that fails keeps
what it had consumed until then. `take` is the only primitive that consumes: it
takes all it asks for or nothing, so no reader ever lengthens what is left.
-/
import Federate.Fault
import Federate.Text.Utf8
namespace Federate

/-- A reading of the front of a byte string, with the bytes left over. -/
def Reader (α : Type) : Type := Bytes → Except Fault α × Bytes

namespace Reader

variable {α β γ : Type}

/-- The outcome of a reading and what it leaves. -/
def run (r : Reader α) (bs : Bytes) : Except Fault α × Bytes := r bs

instance : Monad Reader where
  pure a := fun bs => (.ok a, bs)
  bind r f := fun bs =>
    match r bs with
    | (.ok a, rest) => f a rest
    | (.error e, rest) => (.error e, rest)

@[simp] theorem run_pure (a : α) (bs : Bytes) : (pure a : Reader α).run bs = (.ok a, bs) := rfl

theorem run_bind (r : Reader α) (f : α → Reader β) (bs : Bytes) :
    (r >>= f).run bs =
      match r.run bs with
      | (.ok a, rest) => (f a).run rest
      | (.error e, rest) => (.error e, rest) := rfl

theorem run_bind_ok {r : Reader α} {f : α → Reader β} {bs rest : Bytes} {a : α}
    (h : r.run bs = (.ok a, rest)) : (r >>= f).run bs = (f a).run rest := by
  rw [run_bind, h]

theorem run_bind_error {r : Reader α} {f : α → Reader β} {bs rest : Bytes} {e : Fault}
    (h : r.run bs = (.error e, rest)) : (r >>= f).run bs = (.error e, rest) := by
  rw [run_bind, h]

theorem bind_pure_self (r : Reader α) : r >>= pure = r := by
  funext bs
  show (r >>= pure).run bs = r.run bs
  rw [run_bind]
  split
  · next h => exact h.symm
  · next h => exact h.symm

theorem bind_then (r : Reader α) (f : α → Reader β) (g : β → Reader γ) :
    r >>= f >>= g = r >>= fun a => f a >>= g := by
  funext bs
  show (r >>= f >>= g).run bs = (r >>= fun a => f a >>= g).run bs
  cases h : r.run bs with
  | mk x left =>
    cases x with
    | ok a => rw [run_bind, run_bind_ok h, run_bind_ok h, ← run_bind]
    | error e => rw [run_bind_error h, run_bind_error (run_bind_error h)]

instance : LawfulMonad Reader := .mk' Reader bind_pure_self (fun _ _ => rfl) bind_then

/-- Gives up with a fault, consuming nothing. -/
def fail (e : Fault) : Reader α := fun bs => (.error e, bs)

/-- Goes on with a value, or with the fault of a check. -/
def lift (x : Except Fault α) : Reader α := fun bs => (x, bs)

/-- Exactly `n` bytes; consumes nothing when fewer are left. -/
def take (n : Nat) : Reader Bytes := fun bs =>
  let front := bs.take n
  if front.length < n then
    (.error (.couldNotDecode
      s!"payload truncated: expected {n} more bytes, got {bs.length}"), bs)
  else (.ok front, bs.drop n)

theorem run_take_of_le {n : Nat} {bs : Bytes} (h : n ≤ bs.length) :
    (take n).run bs = (.ok (bs.take n), bs.drop n) := by
  have hn : ¬ (bs.take n).length < n := by rw [List.length_take]; omega
  exact if_neg hn

theorem run_take_of_lt {n : Nat} {bs : Bytes} (h : bs.length < n) :
    (take n).run bs = (.error (.couldNotDecode
      s!"payload truncated: expected {n} more bytes, got {bs.length}"), bs) := by
  have hn : (bs.take n).length < n := by rw [List.length_take]; omega
  exact if_pos hn

/-- All that is left. -/
def rest : Reader Bytes := fun bs => (.ok bs, [])

/-- The number in the next `width` bytes. -/
def nat (width : Nat) : Reader Nat := return Bytes.toNat (← take width)

def byte : Reader UInt8 := return UInt8.ofNat (← nat 1)
def word16 : Reader UInt16 := return UInt16.ofNat (← nat 2)
def word32 : Reader UInt32 := return UInt32.ofNat (← nat 4)
def word64 : Reader UInt64 := return UInt64.ofNat (← nat 8)

/-- A truth value: one byte, zero or one. -/
def flag : Reader Bool := do
  let b ← byte
  if b = 0 then pure false
  else if b = 1 then pure true
  else fail (.couldNotDecode s!"invalid boolean byte {b}")

/-- Bytes after their number, in four bytes. -/
def blob : Reader Bytes := do take (← nat 4)

/-- A text: its UTF-8 bytes after their number. -/
def text : Reader String := do
  match Text.decode (← blob) with
  | .ok s => pure s
  | .error flaw => fail (.couldNotDecode ("invalid UTF-8 string: " ++ flaw.message))

/-- `n` values one after another, up to the first that cannot be read. -/
def many (r : Reader α) : (n : Nat) → Reader (List α)
  | 0 => pure []
  | n + 1 => do
    let a ← r
    let as ← many r n
    pure (a :: as)

/-- Values after their number, in four bytes. -/
def counted (r : Reader α) : Reader (List α) := do r.many (← nat 4)

/-- Bytes left over at the end are a fault. -/
def finish : Reader Unit := fun bs =>
  if bs.isEmpty then (.ok (), bs)
  else (.error (.couldNotDecode s!"{bs.length} trailing bytes in payload"), bs)

/-- The value of a byte string that a reader takes up whole. -/
def whole (r : Reader α) (bs : Bytes) : Except Fault α :=
  ((do let a ← r; finish; pure a : Reader α).run bs).1

end Reader

/-! ## Writing -/

/-- Bytes after their number, in four bytes. -/
def Bytes.blob (bs : Bytes) : Bytes := Bytes.ofNat 4 bs.length ++ bs

/-- A text: its UTF-8 bytes after their number. -/
def Bytes.text (s : String) : Bytes := Bytes.blob (Text.encode s)

/-- A truth value: one byte, zero or one. -/
def Bytes.flag (b : Bool) : Bytes := [if b then 1 else 0]

end Federate
