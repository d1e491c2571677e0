/-
All that holds of the traffic over a session, whatever the order of its steps
(`Reachable.coherent`). None of it needs the numbers of packets to differ; what
does is kept apart, and holds as long as there are fewer than 2^32 packets
(`Reachable.settled`).
-/
import Federate.Proofs.Session.Slots
import Federate.Proofs.Session.Teardown
namespace Federate.Traffic

open Function (update)

variable {t t' : Traffic}

/-- Every answer came in a packet. -/
def Heard (answers : Nat → Option Receipt) (received : List Packet) : Prop :=
  ∀ j a, answers j = some a →
    ∃ header, Packet.mk header (.callResponse a.number a.outcome) ∈ received

namespace Heard

variable {answers : Nat → Option Receipt} {received : List Packet}

theorem append (h : Heard answers received) (p : Packet) : Heard answers (received ++ [p]) := by
  intro j a ha
  obtain ⟨header, hm⟩ := h j a ha
  exact ⟨header, List.mem_append_left _ hm⟩

theorem goes {j : Nat} {a : Receipt} {s : Receipt.Stage} (h : Heard answers received)
    (known : answers j = some a) : Heard (update answers j (some (a.goTo s))) received := by
  intro k b hb
  rcases of_update hb with ⟨-, rfl⟩ | ⟨-, hb⟩
  · exact h j a known
  · exact h k b hb

theorem change (h : Heard t.answers t.received) (hc : Change t t') :
    Heard t'.answers t'.received := by
  cases hc with
  | received p agrees packet => exact h.append packet
  | answered p agrees header new =>
    intro k b hb
    rcases of_update hb with ⟨-, rfl⟩ | ⟨-, hb⟩
    · exact ⟨header, List.mem_append_right _ (List.mem_singleton_self _)⟩
    · exact h.append _ k b hb
  | counts p agrees known | claims known | notes p agrees known | wakes known => exact h.goes known
  | _ => exact h

end Heard

/-- What the link accepted was handed to it. -/
def Offered (handed : List Handing) (sent : List Nat) : Prop := ∀ i ∈ sent, ∃ n, Handed handed i n

namespace Offered

theorem append {handed : List Handing} {sent : List Nat} (h : Offered handed sent) (g : Handing) :
    Offered (handed ++ [g]) sent := by
  intro i hi
  obtain ⟨n, hn⟩ := h i hi
  exact ⟨n, Bearing.handed_append.mpr (.inl hn)⟩

theorem change (h : Offered t.handed t.sent) (hb : Bearing t.calls t.number t.handed)
    (hc : Change t t') : Offered t'.handed t'.sent := by
  cases hc with
  | hands | sends => exact h.append _
  | goesOut known stage =>
    intro i hi
    rcases List.mem_cons.mp hi with rfl | hi
    · exact ⟨_, hb.out _ _ _ known (by rw [stage]; rfl) (by rw [stage]; rfl)⟩
    · exact h i hi
  | _ => exact h

end Offered

/-- What holds of the traffic. -/
structure Coherent (t : Traffic) : Prop where
  numbering : Numbering t.calls t.outgoing t.next t.handed
  bearing : Bearing t.calls t.number t.handed
  table : Table t.calls t.number t.place t.session.pending
  hands : Hands t.calls t.number t.place t.answers t.losses t.tidings
  slots : Slots t.calls t.session.slots t.tidings t.sent t.session.limits
  borne : Borne t.calls t.number t.handed t.place
  heard : Heard t.answers t.received
  offered : Offered t.handed t.sent
  losing : Losing t.session.lost t.losses t.effects
  swept : Swept t.calls t.place t.losses

/-- Nothing has happened yet. -/
theorem coherent_fresh (limits : Session.Limits) (now : Duration) (standing : Standing) :
    Coherent (fresh limits now standing) where
  numbering :=
    { count := rfl
      numbers := fun _ _ h => by cases h
      turn := fun _ _ _ _ h => by cases h
      others := fun h => absurd rfl h
      upcoming := fun _ _ h => by cases h }
  bearing :=
    { known := fun _ _ _ h => by cases h
      caller := fun _ _ h => by cases h
      offered := fun _ _ _ _ _ h => by cases h
      out := fun _ _ _ h => by cases h
      own := fun _ _ h => by cases h
      once := List.Pairwise.nil }
  table :=
    { entries := fun _ _ => ⟨fun h => (by cases h), fun ⟨_, _, h, _⟩ => (by cases h)⟩
      keys := List.nodup_nil
      nowhere := fun _ => iff_of_true rfl rfl
      unique := fun _ _ _ h => by cases h }
  hands :=
    { gone := fun _ _ h => by cases h
      answer := fun _ _ _ h => by cases h
      holder := fun _ _ _ h => by cases h
      one := fun _ _ _ h => by cases h
      loss := fun _ _ _ h => by cases h
      drainer := fun _ _ _ h => by cases h
      told := fun _ _ h => by cases h }
  slots :=
    { ticket := fun _ _ _ h => by cases h
      apart := fun _ _ _ _ _ h => by cases h
      waiting := fun _ _ _ h => by cases h
      lapsed := fun _ _ _ _ h => by cases h
      attended := fun _ _ h => by cases h
      passed := fun _ _ h => by cases h
      onward := fun _ h => by cases h
      ended := fun _ _ _ h => by cases h }
  borne _ _ _ h := by cases h
  heard _ _ h := by cases h
  offered _ h := by cases h
  losing :=
    { struck := ⟨fun h => (by cases h), fun ⟨_, _, h, _⟩ => (by cases h)⟩
      one := fun _ _ _ _ h => by cases h
      did := fun _ _ h => by cases h
      untouched := fun _ => rfl
      unclosed := fun _ _ h => by cases h }
  swept _ _ _ _ h := by cases h

/-- Each step keeps it. -/
theorem Coherent.step (h : Coherent t) (hs : Step t t') : Coherent t' := by
  have hc := hs.change
  exact {
    numbering := h.numbering.change hc
    bearing := h.bearing.change h.numbering hc
    table := h.table.change h.bearing hc
    hands := h.hands.change h.table h.bearing hc
    slots := h.slots.change h.hands hc
    borne := h.borne.change h.table h.bearing h.numbering hc
    heard := h.heard.change hc
    offered := h.offered.change h.bearing hc
    losing := h.losing.change hc
    swept := h.swept.change h.losing h.table h.bearing hc }

theorem Coherent.steps (h : Coherent t) (hs : Steps t t') : Coherent t' := by
  induction hs with
  | refl => exact h
  | tail _ hs ih => exact ih.step hs

/-- **The traffic over a session is coherent, whatever the order of its steps.** -/
theorem Reachable.coherent (h : Reachable t) : Coherent t := by
  obtain ⟨limits, now, standing, hs⟩ := h
  exact (coherent_fresh limits now standing).steps hs

namespace Coherent

theorem number_of_handed (h : Coherent t) {i : Nat} {n : UInt32} (hi : Handed t.handed i n) :
    t.number i = some n := by
  obtain ⟨g, hg, hgi, rfl⟩ := hi
  obtain ⟨c, -, -, -, hn, -⟩ := h.bearing.own i g hg hgi
  exact hn

/-- Somebody will fill the slot of a caller whose entry has left the table, or has filled it. -/
theorem held (h : Coherent t) {i : Nat} {c : Call} {k : Nat} (hc : t.calls i = some c)
    (hk : c.ticket = some k) (still : c.stage.over = false) {n : UInt32}
    (hi : t.number i = some n) (away : t.place i ≠ .table) (alone : ¬ Shared t.number i) :
    (t.session.slot k).ready = true ∨
      (∃ j a, t.place i = .answer j ∧ t.answers j = some a ∧ a.number = n ∧ a.Holds k) ∨
      ∃ j l, t.place i = .loss j ∧ t.losses j = some l ∧ l.Holds k := by
  have ready : ∀ {τ}, τ ∈ t.tidings k → (t.session.slot k).ready = true := by
    intro τ hτ
    obtain ⟨w, hw⟩ := h.slots.filled h.hands hc hk still hτ
    rw [Session.slot, hw]
    rfl
  cases hp : t.place i with
  | nowhere => rw [(h.table.nowhere i).mp hp] at hi; cases hi
  | table => exact absurd hp away
  | answer j =>
    obtain ⟨a, ha, -, hn, hholds⟩ := h.hands.answer i c j hc hp
    rw [hi] at hn
    rcases hholds k hk with hholds | hτ
    · exact .inr (.inl ⟨j, a, rfl, ha, (Option.some.inj hn).symm, hholds⟩)
    · exact .inl (ready hτ)
  | loss j =>
    obtain ⟨l, hl, -, hholds⟩ := h.hands.loss i c j hc hp
    rcases hholds k hk with hholds | hτ
    · exact .inr (.inr ⟨j, l, rfl, hl, hholds⟩)
    · exact .inl (ready hτ)
  | withdrawn =>
    rcases h.hands.gone i c hc hp with hdone | hshared
    · rw [Call.Stage.over_of_done hdone] at still
      cases still
    · exact absurd hshared alone

end Coherent

/-! ## As long as the numbers last -/

/-- What was handed to the link stays handed. -/
theorem Change.handed_prefix (hc : Change t t') : t.handed <+: t'.handed := by
  cases hc with
  | hands | sends => exact List.prefix_append ..
  | _ => exact List.prefix_rfl

theorem Steps.handed_prefix (hs : Steps t t') : t.handed <+: t'.handed := by
  induction hs with
  | refl => exact List.prefix_rfl
  | tail _ hs ih => exact ih.trans hs.change.handed_prefix

theorem Steps.settled (h : Coherent t) (start : Settled t.calls t.number t.handed t.session.lost)
    (hs : Steps t t') (few : t'.handed.length < UInt32.size) :
    Settled t'.calls t'.number t'.handed t'.session.lost := by
  induction hs with
  | refl => exact start
  | tail hs hstep ih =>
    have hc := hstep.change
    have few' := Nat.lt_of_le_of_lt hc.handed_prefix.length_le few
    have hmid := h.steps hs
    exact (ih few').change hmid.bearing hmid.numbering few' hc

/-- As long as the numbers last, no two calls use the same one. -/
theorem Reachable.settled (h : Reachable t) (few : t.handed.length < UInt32.size) :
    Settled t.calls t.number t.handed t.session.lost := by
  obtain ⟨limits, now, standing, hs⟩ := h
  exact hs.settled (coherent_fresh limits now standing) (fun _ _ h => by cases h) few

/-- As long as the numbers last, a call that has handed its packet over has its number alone. -/
theorem Reachable.not_shared (h : Reachable t) (few : t.handed.length < UInt32.size) {i : Nat}
    {n : UInt32} (hi : Handed t.handed i n) : ¬ Shared t.number i := by
  intro hx
  obtain ⟨j, m, hji, him, hjm⟩ := hx
  have hc := h.coherent
  obtain ⟨g, hg, hgi, rfl⟩ := hi
  obtain ⟨c, -, -, -, hin, -⟩ := hc.bearing.own i g hg hgi
  rw [him] at hin
  cases hin
  exact hji ((h.settled few).eq_of_handed hc.bearing hc.numbering few hjm ⟨g, hg, hgi, rfl⟩)

/-! ## What stays -/

/-- A call keeps its number, and does not come back to the table. -/
theorem Change.place_ne_table (hb : Bearing t.calls t.number t.handed) (hc : Change t t') {i : Nat}
    {n : UInt32} (hi : t.number i = some n) (hp : t.place i ≠ .table) :
    t'.number i = some n ∧ t'.place i ≠ .table := by
  cases hc with
  | @enters j c known stage free =>
    have hj : i ≠ j := by
      intro heq
      subst heq
      rw [hb.unnumbered (by simp [known, stage, Call.Stage.early])] at hi
      cases hi
    refine ⟨(Function.update_of_ne hj ..).trans hi, fun hp' => hp ?_⟩
    exact eq_of_moved ((Function.update_of_ne hj ..).symm.trans hp') (by simp)
  | givesUp | refused | withdraws | claims =>
    exact ⟨hi, fun hp' => hp (eq_of_moved hp' (by simp))⟩
  | drains => exact ⟨hi, emptied_ne_table (by simp)⟩
  | _ => exact ⟨hi, hp⟩

theorem Steps.place_ne_table (h : Coherent t) (hs : Steps t t') {i : Nat} {n : UInt32}
    (hi : t.number i = some n) (hp : t.place i ≠ .table) :
    t'.number i = some n ∧ t'.place i ≠ .table := by
  induction hs with
  | refl => exact ⟨hi, hp⟩
  | tail hs hstep ih => exact hstep.change.place_ne_table (h.steps hs).bearing ih.1 ih.2

end Federate.Traffic
