/-
Reading from a buffer that breaks down when it is asked for more than it holds.
Every reader is put together from a few moves (`Recipe`), and each move is made
on the buffer itself: first it is seen whether enough is left, then the bytes are
taken (`Cursor`). However hostile the bytes and whatever is read from them, the
buffer never breaks down, what is left is always an end of what was there, and a
collection is given up no later than at the first element behind the last byte,
whatever number of them is announced (`Draw.safe`).
-/
import Federate.Proofs.Codec.Costs
import Federate.Proofs.Codec.Fields
namespace Federate

/-! ## What a reading leaves -/

namespace Reader

variable {α β : Type} {r : Reader α} {f : α → Reader β}

/-- What is left, whether or not the reading fails, is an end of what there was. -/
def LeavesEnd (r : Reader α) : Prop := ∀ bs, (r.run bs).2 <:+ bs

theorem LeavesEnd.lift (x : Except Fault α) : (lift x).LeavesEnd := List.suffix_refl

theorem leavesEnd_take (n : Nat) : (take n).LeavesEnd := by
  intro bs
  by_cases enough : n ≤ bs.length
  · rw [run_take_of_le enough]
    exact List.drop_suffix n bs
  · exact ⟨[], by rw [run_take_of_lt (by omega), List.nil_append]⟩

theorem LeavesEnd.bind (hr : r.LeavesEnd) (hf : ∀ a, (f a).LeavesEnd) : (r >>= f).LeavesEnd := by
  intro bs
  cases h : r.run bs with
  | mk read mid =>
    have first : mid <:+ bs := by simpa [h] using hr bs
    cases read with
    | ok a =>
      rw [run_bind_ok h]
      exact (hf a mid).trans first
    | error e =>
      rw [run_bind_error h]
      exact first

theorem LeavesEnd.many (h : r.LeavesEnd) (n : Nat) : (r.many n).LeavesEnd := by
  induction n with
  | zero => exact .lift _
  | succ n ih => exact h.bind fun a => ih.bind fun as => .lift _

end Reader

/-! ## Reading from the buffer -/

/-- What came of an operation on a buffer. -/
inductive Outcome (α : Type) where
  | value (a : α)
  | fault (e : Fault)
  /-- More was taken than there was. -/
  | breakdown

/-- The outcome of a reading. -/
def Outcome.of {α : Type} : Except Fault α → Outcome α
  | .ok a => .value a
  | .error e => .fault e

/-- The elements of a collection, one after another: how many bytes were left when they began and
how many of them were begun. -/
structure Walk where
  left : Nat
  begun : Nat

/-- What came of an operation, what it left, and the collections on its way. -/
structure Scan (α : Type) where
  outcome : Outcome α
  left : Bytes
  walks : List Walk

/-- An operation on a buffer. -/
def Cursor (α : Type) : Type := Bytes → Scan α

namespace Cursor

variable {α β : Type}

/-- Goes on with a value, or with the fault of a check. -/
def lift (x : Except Fault α) : Cursor α := fun bs => ⟨.of x, bs, []⟩

/-- Are so many bytes left? -/
def need (n : Nat) : Cursor Unit := fun bs =>
  if bs.length < n then
    ⟨.fault (.couldNotDecode s!"payload truncated: expected {n} more bytes, got {bs.length}"),
      bs, []⟩
  else ⟨.value (), bs, []⟩

/-- Takes so many bytes out of the buffer. -/
def grab (n : Nat) : Cursor Bytes := fun bs =>
  if n ≤ bs.length then ⟨.value (bs.take n), bs.drop n, []⟩ else ⟨.breakdown, bs, []⟩

/-- Takes all there is. -/
def rest : Cursor Bytes := fun bs => ⟨.value bs, [], []⟩

/-- Bytes left over are a fault. -/
def finish : Cursor Unit := fun bs => ⟨.of (Reader.finish.run bs).1, bs, []⟩

/-- One operation after another, unless the first one fails. -/
def bind (x : Cursor α) (f : α → Cursor β) : Cursor β := fun bs =>
  let s := x bs
  match s.outcome with
  | .value a =>
    let later := f a s.left
    ⟨later.outcome, later.left, s.walks ++ later.walks⟩
  | .fault e => ⟨.fault e, s.left, s.walks⟩
  | .breakdown => ⟨.breakdown, s.left, s.walks⟩

/-- `n` elements one after another, up to the first that cannot be read. -/
def elements (x : Cursor α) : (n : Nat) → Cursor (List α)
  | 0 => lift (.ok [])
  | n + 1 => x.bind fun a => (elements x n).bind fun as => lift (.ok (a :: as))

/-- How many of `n` elements are begun. -/
def begun (x : Cursor α) : (n : Nat) → Bytes → Nat
  | 0, _ => 0
  | n + 1, bs =>
    match (x bs).outcome with
    | .value _ => begun x n (x bs).left + 1
    | .fault _ | .breakdown => 1

/-- The elements of a collection. -/
def many (x : Cursor α) (n : Nat) : Cursor (List α) := fun bs =>
  let s := elements x n bs
  { s with walks := ⟨bs.length, begun x n bs⟩ :: s.walks }

end Cursor

/-- Nothing but what the reading comes to, and no collection is gone through past the first element
that finds nothing left. -/
structure Scan.Sound {α : Type} (s : Scan α) (reading : Except Fault α × Bytes) : Prop where
  outcome : s.outcome = .of reading.1
  left : s.left = reading.2
  walks : ∀ w ∈ s.walks, w.begun ≤ w.left + 1

theorem Scan.Sound.ne_breakdown {α : Type} {s : Scan α} {reading : Except Fault α × Bytes}
    (h : s.Sound reading) : s.outcome ≠ .breakdown := by
  rw [h.outcome]
  cases reading.1 <;> exact nofun

namespace Cursor

variable {α β : Type} {x : Cursor α} {r : Reader α}

/-- The operation does to every buffer what the reader does to its bytes. -/
def Follows (x : Cursor α) (r : Reader α) : Prop := ∀ bs, (x bs).Sound (r.run bs)

theorem follows_lift (x : Except Fault α) : (lift x).Follows (Reader.lift x) :=
  fun _ => ⟨rfl, rfl, by simp [lift]⟩

theorem follows_rest : rest.Follows Reader.rest := fun _ => ⟨rfl, rfl, by simp [rest]⟩

theorem follows_finish : finish.Follows Reader.finish := by
  intro bs
  refine ⟨rfl, ?_, by simp [finish]⟩
  show bs = (Reader.finish.run bs).2
  cases bs <;> rfl

/-- Where enough is left, the buffer has what is taken; where it is not, nothing is taken. -/
theorem follows_take (n : Nat) : ((need n).bind fun _ => grab n).Follows (Reader.take n) := by
  intro bs
  by_cases enough : n ≤ bs.length
  · have passed : ¬ bs.length < n := by omega
    have run : ((need n).bind fun _ => grab n) bs = ⟨.value (bs.take n), bs.drop n, []⟩ := by
      simp [bind, need, grab, passed, enough]
    rw [run, Reader.run_take_of_le enough]
    exact ⟨rfl, rfl, by simp⟩
  · have short : bs.length < n := by omega
    have run : ((need n).bind fun _ => grab n) bs = ⟨.fault (.couldNotDecode
        s!"payload truncated: expected {n} more bytes, got {bs.length}"), bs, []⟩ := by
      simp [bind, need, short]
    rw [run, Reader.run_take_of_lt short]
    exact ⟨rfl, rfl, by simp⟩

theorem Follows.bind {f : α → Cursor β} {g : α → Reader β} (hx : x.Follows r)
    (hf : ∀ a, (f a).Follows (g a)) : (x.bind f).Follows (r >>= g) := by
  intro bs
  obtain ⟨outcome, left, walks⟩ := hx bs
  cases hr : r.run bs with
  | mk read mid =>
    rw [hr] at outcome left
    cases read with
    | ok a =>
      have run : (x.bind f) bs =
          ⟨(f a mid).outcome, (f a mid).left, (x bs).walks ++ (f a mid).walks⟩ := by
        simp [Cursor.bind, outcome, left, Outcome.of]
      obtain ⟨outcome', left', walks'⟩ := hf a mid
      rw [run, Reader.run_bind_ok hr]
      refine ⟨outcome', left', fun w hw => ?_⟩
      rcases List.mem_append.mp hw with hw | hw
      · exact walks w hw
      · exact walks' w hw
    | error e =>
      have run : (x.bind f) bs = ⟨.fault e, mid, (x bs).walks⟩ := by
        simp [Cursor.bind, outcome, left, Outcome.of]
      rw [run, Reader.run_bind_error hr]
      exact ⟨rfl, rfl, walks⟩

theorem Follows.elements (h : x.Follows r) (n : Nat) : (x.elements n).Follows (r.many n) := by
  induction n with
  | zero => exact follows_lift _
  | succ n ih => exact h.bind fun a => ih.bind fun as => follows_lift _

/-- An element that was read took a byte, so behind the last byte only one more is begun. -/
theorem Follows.begun_le (h : x.Follows r) (hungry : r.Hungry) (n : Nat) (bs : Bytes) :
    x.begun n bs ≤ bs.length + 1 := by
  induction n generalizing bs with
  | zero => exact Nat.zero_le _
  | succ n ih =>
    obtain ⟨outcome, left, -⟩ := h bs
    cases hr : r.run bs with
    | mk read mid =>
      rw [hr] at outcome left
      cases read with
      | ok a =>
        have taken : mid.length + 1 ≤ bs.length + 0 := hungry bs a mid hr
        have later := ih mid
        simp only [begun, outcome, left, Outcome.of]
        omega
      | error e =>
        simp only [begun, outcome, Outcome.of]
        omega

theorem Follows.many (h : x.Follows r) (hungry : r.Hungry) (n : Nat) :
    (x.many n).Follows (r.many n) := by
  intro bs
  obtain ⟨outcome, left, walks⟩ := h.elements n bs
  refine ⟨outcome, left, fun w hw => ?_⟩
  rcases List.mem_cons.mp hw with rfl | hw
  · exact h.begun_le hungry n bs
  · exact walks w hw

end Cursor

/-- How a reader is put together. -/
inductive Recipe : {α : Type} → Reader α → Type 1 where
  | lift {α : Type} (x : Except Fault α) : Recipe (Reader.lift x)
  | take (n : Nat) : Recipe (Reader.take n)
  | rest : Recipe Reader.rest
  | finish : Recipe Reader.finish
  | bind {α β : Type} {r : Reader α} {f : α → Reader β} (first : Recipe r)
      (next : ∀ a, Recipe (f a)) : Recipe (r >>= f)
  | many {α : Type} {r : Reader α} (n : Nat) (element : Recipe r) (hungry : r.Hungry) :
      Recipe (r.many n)

namespace Recipe

variable {α β : Type} {r r' : Reader α}

/-- What the reader does to the buffer itself. -/
def scan {α : Type} {r : Reader α} : Recipe r → Cursor α
  | .lift x => Cursor.lift x
  | .take n => (Cursor.need n).bind fun _ => Cursor.grab n
  | .rest => Cursor.rest
  | .finish => Cursor.finish
  | .bind first next => first.scan.bind fun a => (next a).scan
  | .many n element _ => element.scan.many n

theorem follows (recipe : Recipe r) : recipe.scan.Follows r := by
  induction recipe with
  | lift x => exact Cursor.follows_lift x
  | take n => exact Cursor.follows_take n
  | rest => exact Cursor.follows_rest
  | finish => exact Cursor.follows_finish
  | bind first next ih ih' => exact ih.bind ih'
  | many n element hungry ih => exact ih.many hungry n

theorem leavesEnd (recipe : Recipe r) : r.LeavesEnd := by
  induction recipe with
  | lift x => exact .lift x
  | take n => exact Reader.leavesEnd_take n
  | rest => exact fun bs => List.nil_suffix
  | finish =>
    intro bs
    cases bs <;> exact List.suffix_refl _
  | bind first next ih ih' => exact ih.bind ih'
  | many n element hungry ih => exact ih.many n

/-! ### The readers -/

def pure (a : α) : Recipe (Pure.pure a : Reader α) := .lift (.ok a)

def fail (e : Fault) : Recipe (Reader.fail e : Reader α) := .lift (.error e)

def map (recipe : Recipe r) (g : α → β) : Recipe (r >>= fun x => Pure.pure (g x)) :=
  recipe.bind fun a => pure (g a)

def ite {p : Prop} [decided : Decidable p] (yes : Recipe r) (no : Recipe r') :
    Recipe (if p then r else r') :=
  match decided with
  | .isTrue _ => yes
  | .isFalse _ => no

def nat (width : Nat) : Recipe (Reader.nat width) := (take width).map _
def byte : Recipe Reader.byte := (nat 1).map _
def word16 : Recipe Reader.word16 := (nat 2).map _
def word32 : Recipe Reader.word32 := (nat 4).map _
def word64 : Recipe Reader.word64 := (nat 8).map _
def flag : Recipe Reader.flag := byte.bind fun _ => ite (pure _) (ite (pure _) (fail _))
def blob : Recipe Reader.blob := (nat 4).bind fun n => take n

def text : Recipe Reader.text :=
  blob.bind fun bs =>
    match Text.decode bs with
    | .ok s => pure s
    | .error _ => fail _

def counted (element : Recipe r) (hungry : r.Hungry) : Recipe r.counted :=
  (nat 4).bind fun n => element.many n hungry

def handle (k : Handle.Kind) : Recipe (Handle.read k) := blob.bind fun _ => .lift _

def table (k : Handle.Kind) {value : Reader α} (recipe : Recipe value) (strict : value.Strict) :
    Recipe (Handle.Table.read k value) :=
  (counted ((handle k).bind fun _ => recipe.map _) (Handle.Table.hungry_entry strict)).map _

def transportation : Recipe Transportation.read := blob.bind fun _ => .lift _

def extent : Recipe Extent.read :=
  word64.bind fun lower => word64.bind fun upper =>
    match Extent.ofBounds lower upper with
    | .ok e => pure e
    | .error _ => fail _

def resignAction : Recipe ResignAction.read :=
  byte.bind fun b =>
    match ResignAction.ofCode b with
    | .ok a => pure a
    | .error _ => fail _

def order : Recipe MessageOrder.read := byte.bind fun _ => ite (pure _) (ite (pure _) (fail _))

def negotiated : (f : Option TimeFamily) → Recipe (Shape.negotiated f)
  | some f => pure f
  | none => fail _

def time (f : Option TimeFamily) : Recipe (Shape.readTime f) :=
  (negotiated f).bind fun _ => (take 8).bind fun _ => .lift _

def maybe (recipe : Recipe r) : Recipe (Shape.readMaybe r) :=
  flag.bind fun _ => ite (recipe.map _) (pure _)

def info (f : Option TimeFamily) : Recipe (Shape.readInfo f) :=
  order.bind fun _ => transportation.bind fun _ => (handle _).bind fun _ => (maybe (time f)).map _

def shape (f : Option TimeFamily) : (s : Shape) → Recipe (s.read f)
  | .text => text
  | .blob => blob
  | .flag => flag
  | .word => word32
  | .handle k => handle k
  | .handles k => table k (pure ()) (.pure ())
  | .values k => table k blob Reader.strict_blob
  | .transportation => transportation
  | .extent => extent
  | .resignAction => resignAction
  | .order => order
  | .family => text.bind fun _ => .lift _
  | .time => time f
  | .interval => (negotiated f).bind fun _ => (take 8).map _
  | .info => info f
  | .maybeText => flag.bind fun _ => text.map _
  | .maybe s => maybe (shape f s)
  | .list s => counted (shape f s) (Shape.hungry_read s)
  | .pair s t => (shape f s).bind fun _ => (shape f t).map _

end Recipe

/-! ## Operations on a payload -/

namespace Field

/-- How many elements the collections of a value have, those inside others included. -/
def members : (d : Field) → d.Value → Nat
  | .shape _ s, v => s.members v
  | .byte, _ | .word16, _ | .word64, _ | .raw _, _ => 0

def recipe : (d : Field) → Recipe d.read
  | .byte => .byte
  | .word16 => .word16
  | .word64 => .word64
  | .raw n => .take n
  | .shape f s => .shape f s

theorem strict_read (d : Field) : d.read.Strict := by
  cases d with
  | byte => exact Reader.strict_byte
  | word16 => exact (Reader.strict_nat 2).map _
  | word64 => exact Reader.strict_word64
  | raw n => exact Reader.strict_take n
  | shape f s => exact s.strict_read

theorem costs_read (d : Field) : d.read.Costs 0 d.members := by
  cases d with
  | shape f s => exact s.costs_read.mono fun _ => Nat.le_succ _
  | byte => exact Reader.strict_byte.costs 0
  | word16 => exact ((Reader.strict_nat 2).map _).costs 0
  | word64 => exact Reader.strict_word64.costs 0
  | raw n => exact (Reader.strict_take n).costs 0

end Field

/-- What can be done to a payload: a value is read, or all the rest is, or the payload is looked at
for bytes left over. -/
inductive Draw where
  | field (d : Field)
  | rest
  | finish

namespace Draw

@[reducible] def Value : Draw → Type
  | .field d => d.Value
  | .rest => Bytes
  | .finish => Unit

def read : (d : Draw) → Reader d.Value
  | .field d => d.read
  | .rest => Reader.rest
  | .finish => Reader.finish

def recipe : (d : Draw) → Recipe d.read
  | .field d => d.recipe
  | .rest => .rest
  | .finish => .finish

/-- An operation and the bytes that it finds. -/
structure Turn where
  draw : Draw
  found : Bytes

/-- What comes of the operation on the buffer. -/
def Turn.scan (t : Turn) : Scan t.draw.Value := t.draw.recipe.scan t.found

/-- Operations on a payload, one after another, whatever comes of each. -/
def course : List Draw → Bytes → List Turn
  | [], _ => []
  | d :: ds, bs =>
    let turn : Turn := ⟨d, bs⟩
    turn :: course ds turn.scan.left

theorem Turn.sound (t : Turn) : t.scan.Sound (t.draw.read.run t.found) :=
  t.draw.recipe.follows t.found

theorem Turn.left_suffix (t : Turn) : t.scan.left <:+ t.found := by
  rw [t.sound.left]
  exact t.draw.recipe.leavesEnd t.found

theorem suffix_of_mem_course {draws : List Draw} {b : Bytes} {t : Turn} (ht : t ∈ course draws b) :
    t.found <:+ b ∧ t.scan.left <:+ b := by
  induction draws generalizing b with
  | nil => cases ht
  | cons d ds ih =>
    rcases List.mem_cons.mp ht with rfl | later
    · exact ⟨List.suffix_refl b, Turn.left_suffix _⟩
    · have first : (Turn.mk d b).scan.left <:+ b := Turn.left_suffix _
      obtain ⟨found, left⟩ := ih later
      exact ⟨found.trans first, left.trans first⟩

theorem pairwise_course (draws : List Draw) (b : Bytes) :
    (b :: (course draws b).map fun t => t.scan.left).Pairwise
      fun earlier later => later <:+ earlier := by
  induction draws generalizing b with
  | nil => exact List.pairwise_singleton _ b
  | cons d ds ih =>
    refine List.pairwise_cons.mpr ⟨fun left hleft => ?_, ih _⟩
    obtain ⟨t, ht, rfl⟩ := List.mem_map.mp hleft
    exact (suffix_of_mem_course ht).2

/-- **The bytes of a payload cannot do harm.** Whatever is read from a payload, one thing after
another and also after faults: what is left is an end of what was left before, the buffer never
breaks down, and of no collection more elements are begun than there were bytes behind its count,
and one. A value that is read depends on the bytes it takes up and on no others, has no more
elements in its collections than these bytes are, and cannot be decoded from fewer of them. -/
theorem safe :
    (∀ (draws : List Draw) (b : Bytes),
      (b :: (course draws b).map fun t => t.scan.left).Pairwise
        (fun earlier later => later <:+ earlier) ∧
      ∀ t ∈ course draws b, t.found <:+ b ∧ t.scan.outcome ≠ .breakdown ∧
        t.scan.outcome = .of (t.draw.read.run t.found).1 ∧
        t.scan.left = (t.draw.read.run t.found).2 ∧
        ∀ w ∈ t.scan.walks, w.begun ≤ w.left + 1) ∧
    ∀ (d : Field) (b : Bytes) (v : d.Value) (left : Bytes), d.read.run b = (.ok v, left) →
      ∃ used, b = used ++ left ∧ d.members v ≤ used.length ∧
        (∀ more, d.read.run (used ++ more) = (.ok v, more)) ∧
        ∀ front back, used = front ++ back → back ≠ [] →
          ∃ details kept, d.read.run front = (.error (.couldNotDecode details), kept) := by
  constructor
  · intro draws b
    refine ⟨pairwise_course draws b, fun t ht => ?_⟩
    exact ⟨(suffix_of_mem_course ht).1, t.sound.ne_breakdown, t.sound.outcome, t.sound.left,
      t.sound.walks⟩
  · intro d b v left read
    obtain ⟨used, rfl, takes⟩ := d.strict_read.takes read
    have few := d.costs_read (used ++ left) v left read
    rw [List.length_append] at few
    refine ⟨used, rfl, by omega, takes, ?_⟩
    rintro front back rfl ne
    exact d.strict_read.short takes ne

/-- As many texts are announced as can be counted, and one follows. -/
def hostile : Bytes := [255, 255, 255, 255, 0, 0, 0, 1, 97]

theorem safe_hostile :
    (∀ t ∈ course [.field (.shape none (.list .text)), .field .byte, .rest] hostile,
      t.scan.outcome ≠ .breakdown) ∧
    ∃ used : Bytes, [0, 0, 0, 1, 1] ++ [9] = used ++ [9] ∧
      Field.members (.shape none (.list .flag)) [true] ≤ used.length := by
  constructor
  · intro t ht
    exact ((safe.1 _ _).2 t ht).2.1
  · have read : (Shape.read none (.list .flag)).run ([0, 0, 0, 1, 1] ++ [9]) = (.ok [true], [9]) := rfl
    obtain ⟨used, bytes, members, -⟩ := safe.2 (.shape none (.list .flag)) _ [true] [9] read
    exact ⟨used, bytes, members⟩

end Draw

end Federate
