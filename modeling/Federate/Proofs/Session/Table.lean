/-
The table of calls without an answer holds what the observer says: an entry for
each call whose place is the table, under the number of that call, and nothing
else. No two calls in the table have the same number: a call that enters under
a number puts out whoever else was there under it.
-/
import Federate.Proofs.Session.Numbering
namespace Federate.Traffic

open Function (update)

variable {t t' : Traffic} {calls : Nat → Option Call} {outgoing : Option Bytes} {next : UInt32}
  {handed : List Handing} {number : Nat → Option UInt32} {place : Nat → Place}
  {pending : List (UInt32 × Session.Pending)}

/-! ## Entries that move -/

theorem moved_eq {n : UInt32} {dest p : Place} {i : Nat} (hp : place i = p) (away : p ≠ .table) :
    moved place number n dest i = p := by
  rw [moved, if_neg fun hi => away (hp.symm.trans hi.1), hp]

theorem eq_of_moved {n : UInt32} {dest p : Place} {i : Nat} (h : moved place number n dest i = p)
    (hp : p ≠ dest) : place i = p := by
  unfold moved at h
  split at h
  · exact absurd h.symm hp
  · exact h

theorem moved_ne_table {n : UInt32} {dest : Place} {i : Nat} (away : dest ≠ .table)
    (hi : number i = some n) : moved place number n dest i ≠ .table := by
  unfold moved
  split
  · exact away
  · next hn => exact fun hp => hn ⟨hp, hi⟩

theorem emptied_eq {dest p : Place} {i : Nat} (hp : place i = p) (away : p ≠ .table) :
    emptied place dest i = p := by
  rw [emptied, if_neg fun hi => away (hp.symm.trans hi), hp]

theorem eq_of_emptied {dest p : Place} {i : Nat} (h : emptied place dest i = p) (hp : p ≠ dest) :
    place i = p := by
  unfold emptied at h
  split at h
  · exact absurd h.symm hp
  · exact h

/-- Nothing is left in the table. -/
theorem emptied_ne_table {dest : Place} {i : Nat} (away : dest ≠ .table) :
    emptied place dest i ≠ .table := by
  unfold emptied
  split
  · exact away
  · assumption

/-! ## What is in the table -/

/-- The entries of the table, and the calls that they belong to. -/
structure Table (calls : Nat → Option Call) (number : Nat → Option UInt32) (place : Nat → Place)
    (pending : List (UInt32 × Session.Pending)) : Prop where
  entries : ∀ n p, (n, p) ∈ pending ↔
    ∃ i c, calls i = some c ∧ place i = .table ∧ number i = some n ∧ p = c.pending
  keys : (pending.map Prod.fst).Nodup
  nowhere : ∀ i, place i = .nowhere ↔ number i = none
  unique : ∀ i j n, place i = .table → place j = .table → number i = some n →
    number j = some n → i = j

namespace Table

/-- A call that begins. -/
theorem begins {i : Nat} {c : Call} (h : Table calls number place pending)
    (hb : Bearing calls number handed) (new : calls i = none) :
    Table (update calls i (some c)) number place pending := by
  have hplace : place i = .nowhere := (h.nowhere i).mpr (hb.unnumbered (by simp [new]))
  exact { h with
    entries := fun n p => by
      rw [h.entries]
      constructor
      · intro hx
        obtain ⟨j, d, hd, hrest⟩ := hx
        exact ⟨j, d, update_of_new new hd, hrest⟩
      · intro hx
        obtain ⟨j, d, hd, hp, hrest⟩ := hx
        rcases of_update hd with ⟨rfl, -⟩ | ⟨-, hd⟩
        · rw [hplace] at hp; cases hp
        · exact ⟨j, d, hd, hp, hrest⟩ }

/-- A step of a call that stays where it is. -/
theorem goes {i : Nat} {c : Call} {s : Call.Stage} (h : Table calls number place pending)
    (known : calls i = some c) :
    Table (update calls i (some (c.goTo s))) number place pending :=
  { h with
    entries := fun n p => by
      rw [h.entries]
      constructor
      · intro hx
        obtain ⟨j, hj⟩ := hx
        exact ⟨j, row_of_update (b := c.goTo s) (P := fun j (d : Call) =>
          place j = .table ∧ number j = some n ∧ p = d.pending) known id hj⟩
      · intro hx
        obtain ⟨j, d, hd, hrest⟩ := hx
        rcases of_update hd with ⟨rfl, rfl⟩ | ⟨-, hd⟩
        · exact ⟨j, c, known, hrest⟩
        · exact ⟨j, d, hd, hrest⟩ }

/-- The entries under a number leave the table. -/
theorem leaves {n : UInt32} {dest : Place} (h : Table calls number place pending)
    (away : dest ≠ .table) (somewhere : dest ≠ .nowhere) :
    Table calls number (moved place number n dest) (pending.filter (·.1 != n)) where
  entries m p := by
    rw [List.mem_filter, h.entries]
    constructor
    · intro hx
      obtain ⟨⟨i, c, hc, hp, hi, rfl⟩, hm⟩ := hx
      have hmn : m ≠ n := by simpa using hm
      refine ⟨i, c, hc, ?_, hi, rfl⟩
      rw [moved, if_neg (by simp [hi, hmn]), hp]
    · intro hx
      obtain ⟨i, c, hc, hp, hi, rfl⟩ := hx
      refine ⟨⟨i, c, hc, eq_of_moved hp away.symm, hi, rfl⟩, ?_⟩
      have : m ≠ n := by
        intro heq
        subst heq
        exact moved_ne_table away hi hp
      simpa using this
  keys := h.keys.sublist (List.filter_sublist.map Prod.fst)
  nowhere i := by
    rw [← h.nowhere i, moved]
    split
    · next ht => simp [ht.1, somewhere]
    · rfl
  unique i j m hi hj := h.unique i j m (eq_of_moved hi away.symm) (eq_of_moved hj away.symm)

/-- A call enters the table under a number, and nobody else is there under it any more. -/
theorem enters {i : Nat} {c : Call} {n : UInt32} (h : Table calls number place pending)
    (known : calls i = some c) (hi : number i = none) :
    Table (update calls i (some (c.goTo (.entered n)))) (update number i (some n))
      (update (moved place number n .withdrawn) i .table)
      ((n, c.pending) :: pending.filter (·.1 != n)) := by
  have rest : Table calls number (moved place number n .withdrawn)
      (pending.filter (·.1 != n)) := h.leaves (by simp) (by simp)
  have hnowhere : moved place number n .withdrawn i ≠ .table := by
    rw [(rest.nowhere i).mpr hi]
    simp
  have others : ∀ {j}, moved place number n .withdrawn j = .table → number j ≠ some n :=
    fun hp hj => moved_ne_table (by simp) hj hp
  exact {
    entries := fun m p => by
      constructor
      · intro hm
        rcases List.mem_cons.mp hm with hm | hm
        · cases hm
          exact ⟨i, _, Function.update_self .., Function.update_self ..,
            Function.update_self .., rfl⟩
        · obtain ⟨j, d, hd, hp, hj, rfl⟩ := (rest.entries m p).mp hm
          have hne : j ≠ i := by
            intro heq
            subst heq
            exact hnowhere hp
          refine ⟨j, d, ?_, ?_, ?_, rfl⟩ <;> rw [Function.update_of_ne hne] <;> assumption
      · intro hx
        obtain ⟨j, d, hd, hp, hj, rfl⟩ := hx
        rcases of_update hd with ⟨rfl, rfl⟩ | ⟨hne, hd⟩
        · rw [Function.update_self] at hj
          cases hj
          exact List.mem_cons_self
        · rw [Function.update_of_ne hne] at hp hj
          exact List.mem_cons_of_mem _ ((rest.entries m _).mpr ⟨j, d, hd, hp, hj, rfl⟩)
    keys := by
      rw [List.map_cons, List.nodup_cons]
      refine ⟨fun hm => ?_, rest.keys⟩
      obtain ⟨⟨m, p⟩, hp, rfl⟩ := List.mem_map.mp hm
      obtain ⟨j, d, -, hp, hj, -⟩ := (rest.entries m p).mp hp
      exact others hp hj
    nowhere := fun j => by
      by_cases hj : j = i
      · subst hj
        simp
      · rw [Function.update_of_ne hj, Function.update_of_ne hj]
        exact rest.nowhere j
    unique := fun j k m hj hk hjm hkm => by
      rcases of_update hjm with ⟨rfl, rfl⟩ | ⟨hji, hjm⟩ <;>
        rcases of_update hkm with ⟨hki, hnm⟩ | ⟨hki, hkm⟩
      · exact hki.symm
      · rw [Function.update_of_ne hki] at hk
        exact absurd hkm (others hk)
      · rw [Function.update_of_ne hji] at hj
        rw [hnm] at hjm
        exact absurd hjm (others hj)
      · rw [Function.update_of_ne hji] at hj
        rw [Function.update_of_ne hki] at hk
        exact rest.unique j k m hj hk hjm hkm }

/-- The table is emptied. -/
theorem drains {dest : Place} (h : Table calls number place pending) (away : dest ≠ .table)
    (somewhere : dest ≠ .nowhere) : Table calls number (emptied place dest) [] where
  entries n p := by
    constructor
    · intro hm; cases hm
    · intro hx
      obtain ⟨i, c, hc, hp, -⟩ := hx
      exact absurd hp (emptied_ne_table away)
  keys := List.nodup_nil
  nowhere i := by
    rw [← h.nowhere i, emptied]
    split
    · next ht => simp [ht, somewhere]
    · rfl
  unique i j n hi := absurd hi (emptied_ne_table away)

/-- Whoever has a place has begun. -/
theorem caller (h : Table calls number place pending) (hb : Bearing calls number handed) {i : Nat}
    (hi : place i ≠ .nowhere) : ∃ c, calls i = some c := by
  cases hni : number i with
  | none => exact absurd ((h.nowhere i).mpr hni) hi
  | some n =>
    obtain ⟨c, hc, -⟩ := hb.caller i n hni
    exact ⟨c, hc⟩

theorem change (h : Table t.calls t.number t.place t.session.pending)
    (hb : Bearing t.calls t.number t.handed) (hc : Change t t') :
    Table t'.calls t'.number t'.place t'.session.pending := by
  cases hc with
  | callBegins envelope new | castBegins envelope new => exact h.begins hb new
  | turnedAway known stage | looks known stage | looksAgain known stage | hands known stage
  | goesOut known stage | waits known stage | leaves known stage | collects known stage
  | lapses known stage | expires known stage => exact h.goes known
  | givesUp known stage | refused known stage | withdraws known stage =>
    exact (h.leaves (by simp) (by simp)).goes known
  | enters known stage free =>
    exact h.enters known (hb.unnumbered (by simp [known, stage, Call.Stage.early]))
  | claims known stage => exact h.leaves (by simp) (by simp)
  | drains known stage => exact h.drains (by simp) (by simp)
  | aside p agrees | received p agrees | answered p agrees | counts p agrees | notes p agrees
  | tears p agrees =>
    show Table _ _ _ p.session.pending
    rw [agrees.pending]
    exact h
  | _ => exact h

end Table

/-! ## Who is in the table -/

/-- A call in the table is about to hand its packet over, or has done so. -/
def Borne (calls : Nat → Option Call) (number : Nat → Option UInt32) (handed : List Handing)
    (place : Nat → Place) : Prop :=
  ∀ i c n, calls i = some c → place i = .table → number i = some n →
    c.stage.placed = true ∨ Handed handed i n

namespace Borne

/-- A step of a call, after which it is in the table only if it was. -/
theorem goes {i : Nat} {c : Call} {place' : Nat → Place} {handed' : List Handing}
    (h : Borne calls number handed place)
    (stays : ∀ j, j ≠ i → place' j = .table → place j = .table)
    (more : ∀ j n, Handed handed j n → Handed handed' j n)
    (mine : ∀ n, place' i = .table → number i = some n →
      c.stage.placed = true ∨ Handed handed' i n) :
    Borne (update calls i (some c)) number handed' place' := by
  intro j d n hd hp hj
  rcases of_update hd with ⟨rfl, rfl⟩ | ⟨hji, hd⟩
  · exact mine n hp hj
  · exact (h j d n hd (stays j hji hp) hj).imp_right (more j n)

/-- A call enters the table. -/
theorem enters {i : Nat} {c : Call} (h : Borne calls number handed place) (n : UInt32) :
    Borne (update calls i (some (c.goTo (.entered n)))) (update number i (some n)) handed
      (update (moved place number n .withdrawn) i .table) := by
  intro j d m hd hp hj
  rcases of_update hd with ⟨rfl, rfl⟩ | ⟨hji, hd⟩
  · exact .inl rfl
  · rw [Function.update_of_ne hji] at hp hj
    exact h j d m hd (eq_of_moved hp (by simp)) hj

theorem change (h : Borne t.calls t.number t.handed t.place)
    (ht : Table t.calls t.number t.place t.session.pending)
    (hb : Bearing t.calls t.number t.handed) (hn : Numbering t.calls t.outgoing t.next t.handed)
    (hc : Change t t') : Borne t'.calls t'.number t'.handed t'.place := by
  cases hc with
  | @callBegins i envelope new | @castBegins i envelope new =>
    have hp : t.place i = .nowhere := (ht.nowhere i).mpr (hb.unnumbered (by simp [new]))
    exact h.goes (fun _ _ => id) (fun _ _ => id) fun _ hp' => absurd (hp.symm.trans hp') (by simp)
  | turnedAway known stage | looks known stage | goesOut known stage | waits known stage
  | leaves known stage | collects known stage | lapses known stage | expires known stage =>
    refine h.goes (fun _ _ => id) (fun _ _ => id) fun n hp hi => .inr ?_
    exact (h _ _ n known hp hi).resolve_left (by simp [stage, Call.Stage.placed])
  | looksAgain known stage => exact h.goes (fun _ _ => id) (fun _ _ => id) fun _ _ _ => .inl rfl
  | enters known stage free => exact h.enters _
  | givesUp known stage | withdraws known stage =>
    have hi := hb.known _ _ _ known (by rw [stage]; rfl)
    exact h.goes (fun _ _ hp => eq_of_moved hp (by simp)) (fun _ _ => id)
      fun _ hp => absurd hp (moved_ne_table (by simp) hi)
  | refused known stage =>
    obtain ⟨rfl, -⟩ := hb.offered _ _ _ _ _ known stage
    have hi := hb.known _ _ _ known (by rw [stage]; rfl)
    exact h.goes (fun _ _ hp => eq_of_moved hp (by simp)) (fun _ _ => id)
      fun _ hp => absurd hp (moved_ne_table (by simp) hi)
  | @hands i c n known stage =>
    have hi := hb.known i c _ known (hn.upcoming i c known (by rw [stage]; rfl))
    refine h.goes (fun _ _ => id) (fun _ _ hj => Bearing.handed_append.mpr (.inl hj)) ?_
    intro m _ hm
    rw [hi] at hm
    exact .inr (Bearing.handed_append.mpr (.inr ⟨rfl, Option.some.inj hm⟩))
  | sends m free =>
    exact fun i c n hc hp hi =>
      (h i c n hc hp hi).imp_right fun hj => Bearing.handed_append.mpr (.inl hj)
  | claims known stage => exact fun i c n hc hp => h i c n hc (eq_of_moved hp (by simp))
  | drains known stage => exact fun i c n hc hp => absurd hp (emptied_ne_table (by simp))
  | _ => exact h

end Borne

end Federate.Traffic
