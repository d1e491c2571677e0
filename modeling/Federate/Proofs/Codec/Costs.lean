/-
What readings cost. A reader takes up at least so many bytes for a value
(`Costs`); what has been taken up before is a credit for what is read next, so
that readers are put together without arithmetic. A collection costs a byte for
each of its elements, at any depth (`Shape.costs_read`).
-/
import Mathlib.Algebra.GroupWithZero.Nat
import Federate.Proofs.Codec.Shapes
namespace Federate

namespace Reader

variable {α β : Type} {r : Reader α} {f : α → Reader β} {credit : Nat} {cost : α → Nat}
  {cost' : β → Nat}

/-- Every reading of a value takes up as many bytes as the value costs, less a credit. -/
def Costs (r : Reader α) (credit : Nat) (cost : α → Nat) : Prop :=
  ∀ bs a rest, r.run bs = (.ok a, rest) → rest.length + cost a ≤ bs.length + credit

/-- No value is read from nothing. -/
def Hungry (r : Reader α) : Prop := r.Costs 0 fun _ => 1

theorem Costs.mono {less : α → Nat} (h : r.Costs credit cost) (le : ∀ a, less a ≤ cost a) :
    r.Costs credit less := by
  intro bs a rest hr
  have taken := h bs a rest hr
  have cheaper := le a
  omega

theorem Costs.pure {a : α} (h : cost a ≤ credit) : (Pure.pure a : Reader α).Costs credit cost := by
  intro bs _ rest hr
  cases hr
  omega

/-- What the first reading costs is the credit of the second. -/
theorem Costs.bind (hr : r.Costs credit cost) (hf : ∀ a, (f a).Costs (cost a) cost') :
    (r >>= f).Costs credit cost' := by
  intro bs b rest h
  obtain ⟨a, mid, hfirst, hsecond⟩ := run_bind_eq_ok.mp h
  have first := hr bs a mid hfirst
  have second := hf a mid b rest hsecond
  omega

theorem Costs.map {g : α → β} (h : r.Costs credit cost) (le : ∀ a, cost' (g a) ≤ cost a) :
    (r >>= fun x => Pure.pure (g x)).Costs credit cost' :=
  h.bind fun a => .pure (le a)

theorem Costs.ite {p : Prop} [Decidable p] {r r' : Reader α} (h : r.Costs credit cost)
    (h' : r'.Costs credit cost) : (if p then r else r').Costs credit cost := by
  split
  · exact h
  · exact h'

/-- A credit pays for what has been read before. -/
theorem Costs.frame (h : r.Costs 0 cost) (credit : Nat) :
    r.Costs credit fun a => cost a + credit := by
  intro bs a rest hr
  have taken := h bs a rest hr
  show rest.length + (cost a + credit) ≤ bs.length + credit
  omega

/-- A reader that depends on what it takes up does not lengthen what is left. -/
theorem Strict.costs (h : r.Strict) (credit : Nat) : r.Costs credit fun _ => credit := by
  intro bs a rest hr
  obtain ⟨used, rfl, -⟩ := h.takes hr
  show rest.length + credit ≤ (used ++ rest).length + credit
  rw [List.length_append]
  omega

theorem Hungry.bind (hr : r.Hungry) (hf : ∀ a, (f a).Strict) : (r >>= f).Hungry :=
  Costs.bind hr fun a => (hf a).costs 1

theorem costs_take (n credit : Nat) : (take n).Costs credit fun _ => n + credit := by
  intro bs u rest h
  obtain ⟨rfl, rfl⟩ := run_take_eq_ok h
  show rest.length + (u.length + credit) ≤ (u ++ rest).length + credit
  rw [List.length_append]
  omega

theorem costs_nat (width credit : Nat) : (nat width).Costs credit fun _ => width + credit :=
  (costs_take width credit).map fun _ => Nat.le_refl _

theorem hungry_take (n : Nat) : (take (n + 1)).Hungry :=
  (costs_take (n + 1) 0).mono fun _ => Nat.le_add_left 1 n

theorem hungry_nat (width : Nat) : (nat (width + 1)).Hungry :=
  (hungry_take width).bind fun _ => .pure _

theorem hungry_byte : byte.Hungry := (hungry_nat 0).bind fun _ => .pure _
theorem hungry_word32 : word32.Hungry := (hungry_nat 3).bind fun _ => .pure _
theorem hungry_word64 : word64.Hungry := (hungry_nat 7).bind fun _ => .pure _
theorem hungry_blob : blob.Hungry := (hungry_nat 3).bind fun n => strict_take n

theorem hungry_flag : flag.Hungry :=
  hungry_byte.bind fun _ => .ite (.pure _) (.ite (.pure _) (.fail _))

theorem hungry_text : text.Hungry := by
  refine hungry_blob.bind fun bs => ?_
  split
  · exact .pure _
  · exact .fail _

theorem Costs.many (h : r.Costs 0 cost) (n credit : Nat) :
    (r.many n).Costs credit fun as => (as.map cost).sum + credit := by
  induction n generalizing credit with
  | zero => exact .pure (by simp)
  | succ n ih =>
    refine (h.frame credit).bind fun a => (ih _).map fun as => ?_
    rw [List.map_cons, List.sum_cons]
    omega

theorem Costs.counted (h : r.Costs 0 cost) :
    r.counted.Costs 0 fun as => (as.map cost).sum + 4 :=
  (costs_nat 4 0).bind fun n => h.many n 4

end Reader

namespace Handle

variable {k : Handle.Kind} {β : Type} {value : Reader β}

theorem hungry_read : (read k).Hungry := Reader.hungry_blob.bind fun _ => .lift _

namespace Table

theorem length_put_le (h : Handle k) (v : β) (es : List (Handle k × β)) :
    (put h v es).length ≤ es.length + 1 := by
  induction es with
  | nil => simp [put]
  | cons e es ih =>
    simp only [put]
    split
    · simp
    · split
      · simp
      · simpa using ih

theorem size_foldl_insert_le (t : Table k β) (es : List (Handle k × β)) :
    (es.foldl (fun t e => t.insert e.1 e.2) t).size ≤ t.size + es.length := by
  induction es generalizing t with
  | nil => exact Nat.le_refl _
  | cons e es ih =>
    have grown : (t.insert e.1 e.2).size ≤ t.size + 1 := length_put_le e.1 e.2 t.entries
    have rest := ih (t.insert e.1 e.2)
    rw [List.foldl_cons, List.length_cons]
    omega

/-- Of entries with one key a single one stays. -/
theorem size_ofList_le (es : List (Handle k × β)) : (ofList es).size ≤ es.length := by
  have size := size_foldl_insert_le empty es
  have none : (empty : Table k β).size = 0 := rfl
  rw [ofList]
  omega

theorem hungry_entry (h : value.Strict) :
    (do let key ← Handle.read k
        let v ← value
        pure (key, v) : Reader (Handle k × β)).Hungry :=
  Handle.hungry_read.bind fun _ => h.map _

theorem costs_read (h : value.Strict) : (read k value).Costs 0 fun t => t.size + 1 := by
  refine (Reader.Costs.counted (hungry_entry h)).map fun es => ?_
  have size := size_ofList_le es
  have each : (es.map fun _ => 1).sum = es.length := by
    rw [List.map_const', List.sum_replicate_nat, Nat.mul_one]
  omega

end Table

end Handle

namespace Shape

variable {f : Option TimeFamily}

/-- How many elements the collections of a value have, those inside others included. -/
def members : (s : Shape) → s.Value → Nat
  | .handles _, v => v.size
  | .values _, v => v.size
  | .maybe s, v => (v.toList.map (members s)).sum
  | .list s, v => (v.map fun a => members s a + 1).sum
  | .pair s t, v => members s v.1 + members t v.2
  | _, _ => 0

theorem hungry_order : MessageOrder.read.Hungry :=
  Reader.hungry_byte.bind fun _ => .ite (.pure _) (.ite (.pure _) (.fail _))

theorem hungry_negotiated {α : Type} {r : TimeFamily → Reader α} (h : ∀ g, (r g).Hungry) :
    (negotiated f >>= r).Hungry :=
  (strict_negotiated.costs 0).bind h

/-- Every element of a collection takes up a byte, and what it is an element of another. -/
theorem costs_read (s : Shape) : (s.read f).Costs 0 fun v => s.members v + 1 := by
  induction s with
  | text => exact Reader.hungry_text
  | blob => exact Reader.hungry_blob
  | flag => exact Reader.hungry_flag
  | word => exact Reader.hungry_word32
  | handle k => exact Handle.hungry_read
  | handles k => exact Handle.Table.costs_read (.pure ())
  | values k => exact Handle.Table.costs_read Reader.strict_blob
  | transportation => exact Reader.hungry_blob.bind fun _ => .lift _
  | extent =>
    refine Reader.hungry_word64.bind fun lower => Reader.strict_word64.bind fun upper => ?_
    split
    · exact .pure _
    · exact .fail _
  | resignAction =>
    refine Reader.hungry_byte.bind fun b => ?_
    split
    · exact .pure _
    · exact .fail _
  | order => exact hungry_order
  | family => exact Reader.hungry_text.bind fun _ => .lift _
  | time => exact hungry_negotiated fun _ => (Reader.hungry_take 7).bind fun _ => .lift _
  | interval => exact hungry_negotiated fun _ => (Reader.hungry_take 7).bind fun _ => .pure _
  | info =>
    exact hungry_order.bind fun _ => Transportation.strict_read.bind fun _ =>
      Handle.strict_read.bind fun _ => (strict_readMaybe strict_readTime).map _
  | maybeText => exact Reader.hungry_flag.bind fun _ => Reader.strict_text.map _
  | maybe s ih =>
    refine Reader.Costs.bind Reader.hungry_flag fun present =>
      .ite ((ih.frame 1).map fun a => ?_) (.pure ?_)
    · simp [members]
    · simp [members]
  | list s ih => exact (Reader.Costs.counted ih).mono fun _ => Nat.add_le_add_left (by decide) _
  | pair s t hs ht =>
    refine hs.bind fun a => (ht.frame _).map fun b => ?_
    simp only [members]
    omega

theorem hungry_read (s : Shape) : (s.read f).Hungry :=
  s.costs_read.mono fun _ => Nat.le_add_left 1 _

end Shape

end Federate
