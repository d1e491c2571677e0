/-
Which answer ends which call. A call whose packet was accepted ends on the
first thing that reached its own slot: the answer to the number in the header of
its own packet, the loss of the session, or the end of its wait. Other answers
do not get there, and an answer that comes again is only counted.

The number of a packet has 32 bits, so all this holds as long as fewer than 2^32
packets were handed to the link. A packet that the link refused counts, since it
has used up its number.
-/
import Federate.Proofs.Session.Coherence
namespace Federate

/-- The packet of a request has its number in its header. -/
theorem Handing.Carries.numberAt {h : Handing} {e : Envelope} (hc : h.Carries e) :
    Packet.Header.numberAt h.packet 4 4 = h.number.toNat := by
  obtain ⟨session, last, hp⟩ := hc
  rw [hp]
  exact Packet.Header.numberAt_bytes _ _

namespace Traffic

variable {t t' : Traffic}

/-- Where the tiding that has ended a call came from. -/
def Came (t : Traffic) (i : Nat) (c : Call) : Tiding → Prop
  | .response n outcome =>
    (∃ h ∈ t.handed, h.caller = some i ∧ h.Carries c.envelope ∧
      Packet.Header.numberAt h.packet 4 4 = n.toNat) ∧
    ∃ header, Packet.mk header (.callResponse n outcome) ∈ t.received
  | .loss reason => ∃ j l, t.losses j = some l ∧ l.stage.won = true ∧ l.reason = reason
  | .expiry n => ∃ h ∈ t.handed, h.caller = some i ∧ h.number = n

/-- Answers to the number are noted as packets that came, and counted, and do nothing else: taken
in as a whole, or step by step after they have been counted. -/
structure Ignores (t : Traffic) (n : UInt32) : Prop where
  whole : ∀ header outcome now,
    t.presence.receive ⟨header, .callResponse n outcome⟩ now = (⟨none, none⟩, { t.presence with
      session := (t.session.stamp header.sequenceNumber now).count
        (.countResponse (Presence.isFault outcome)) })
  stepwise : ∀ a : Receipt, a.number = n → a.stage = .claiming →
    a.step t.presence = (a.goTo .ended, t.presence)

/-- What calls have to do with the answers to them. -/
structure Correlated (t : Traffic) : Prop where
  /-- No two packets have the same number, and no call has two packets. -/
  packets : t.handed.Pairwise fun g h =>
    g.number ≠ h.number ∧ ∀ i, g.caller = some i → h.caller ≠ some i
  /-- A caller whose packet was accepted, and who has returned, did so with the first thing that
  reached the slot. -/
  returns : ∀ i c k r, t.calls i = some c → c.ticket = some k → i ∈ t.sent → c.stage = .ended r →
    ∃ τ, (t.tidings k).head? = some τ ∧ t.Came i c τ ∧ r = τ.result t.session.limits
  own_slot : ∀ i j c d k, t.calls i = some c → t.calls j = some d → c.ticket = some k →
    d.ticket = some k → i = j
  /-- An answer that has reached a slot has taken the entry of that caller, and has the number of no
  other call, nor that call another number. -/
  responses : ∀ i c k n outcome, t.calls i = some c → c.ticket = some k →
    .response n outcome ∈ t.tidings k →
      (∃ j a, t.place i = .answer j ∧ t.answers j = some a ∧ a.number = n ∧ a.outcome = outcome) ∧
      (∀ m, Handed t.handed i m → m = n) ∧ ∀ j, Handed t.handed j n → j = i
  /-- Once a number has been used and no call waits under it any more, as after an answer to it, a
  further answer to it does nothing. -/
  again : ∀ s g, Reachable s → Steps s t → g ∈ s.handed →
    (∀ p, (g.number, p) ∉ s.session.pending) → t.Ignores g.number
  /-- A call that nobody waits for says nothing but that it was sent. -/
  casts : ∀ i c, t.calls i = some c → c.ticket = none → i ∈ t.sent →
    (∃ n, c.stage = .accepted n) ∨ c.stage = .ended (.ok [])
  keys : (t.session.pending.map Prod.fst).Nodup
  /-- An entry is that of a call which has handed its packet over under the number of the entry, or
  has its turn and is about to. -/
  entries : ∀ n p, (n, p) ∈ t.session.pending → ∃ i c, t.calls i = some c ∧ p = c.pending ∧
    (c.stage.placed = true ∧ c.stage.number? = some n ∧ n = t.next ∨ Handed t.handed i n)
  /-- A caller in front of an empty slot is in the table under the number of its packet, or in the
  hands of somebody who is about to fill the slot. -/
  waiting : ∀ i c k n, t.calls i = some c → c.ticket = some k → c.stage = .waiting n →
    (t.session.slot k).ready = false → Handed t.handed i n ∧
      ((n, c.pending) ∈ t.session.pending ∨
        (∃ j a, t.answers j = some a ∧ a.number = n ∧ a.Holds k) ∨
        ∃ j l, t.losses j = some l ∧ l.Holds k)

namespace Coherent

/-- What ended a call came from where its entry went. -/
theorem came (h : Coherent t) {i : Nat} {c : Call} {k : Nat} {τ : Tiding}
    (hc : t.calls i = some c) (hk : c.ticket = some k) (sent : i ∈ t.sent) (hτ : τ ∈ t.tidings k) :
    t.Came i c τ := by
  obtain ⟨j, d, hd, hdk, hs⟩ := h.hands.told k τ hτ
  obtain rfl := h.slots.apart _ _ _ _ _ hc hd hk hdk
  rw [hc] at hd
  cases hd
  obtain ⟨m, g, hg, hgi, hgm⟩ := h.offered i sent
  obtain ⟨d, hd, -, -, him, hcarries⟩ := h.bearing.own i g hg hgi
  rw [hc] at hd
  cases hd
  cases τ with
  | response n outcome =>
    obtain ⟨hin, j, a, -, ha, rfl, rfl⟩ := hs
    rw [him] at hin
    refine ⟨⟨g, hg, hgi, hcarries, ?_⟩, h.heard j a ha⟩
    rw [hcarries.numberAt, Option.some.inj hin]
  | loss reason =>
    obtain ⟨j, l, hp, hl, hreason⟩ := hs
    obtain ⟨l', hl', hemptied, -⟩ := h.hands.loss i c j hc hp
    rw [hl] at hl'
    cases hl'
    exact ⟨j, l, hl, Loss.Stage.won_of_emptied hemptied, hreason⟩
  | expiry n =>
    obtain ⟨hin, -⟩ := hs
    rw [him] at hin
    exact ⟨g, hg, hgi, Option.some.inj hin⟩

/-- A number that is not in the table is ignored. -/
theorem ignores {n : UInt32} (absent : ∀ p, (n, p) ∉ t.session.pending) : t.Ignores n := by
  have hlookup : t.session.pending.lookup n = none := by
    rw [List.lookup_eq_none_iff]
    rintro ⟨m, p⟩ hp
    have : n ≠ m := by
      intro heq
      subst heq
      exact absent p hp
    simpa using this
  have hwithdraw : t.session.pending.filter (·.1 != n) = t.session.pending := by
    rw [List.filter_eq_self]
    rintro ⟨m, p⟩ hp
    have : m ≠ n := by
      intro heq
      subst heq
      exact absent p hp
    simpa using this
  have hclaim : t.session.claim n = (none, t.session) := by
    rw [Session.claim, Session.withdraw, hlookup, hwithdraw]
  refine ⟨fun header outcome now => ?_, fun a ha hs => ?_⟩
  · have hclaim' : ((t.session.stamp header.sequenceNumber now).count
        (.countResponse (Presence.isFault outcome))).claim n = (none,
          (t.session.stamp header.sequenceNumber now).count
            (.countResponse (Presence.isFault outcome))) := by
      simp only [Session.claim, Session.withdraw, Session.stamp, Session.count, hlookup, hwithdraw]
    simp only [Presence.receive, Presence.resolve, Presence.onSession]
    rw [show t.presence.session = t.session from rfl, hclaim']
  · simp only [Receipt.step, hs, ha]
    rw [show t.presence.session = t.session from rfl, hclaim]
    rfl

end Coherent

/-- A number that has been used, and under which no call waits, does not come back to the table. -/
theorem Reachable.absent_of_absent {s : Traffic} (h : Reachable s)
    (few : t.handed.length < UInt32.size) (hst : Steps s t) {g : Handing} (hg : g ∈ s.handed)
    (absent : ∀ p, (g.number, p) ∉ s.session.pending) (p : Session.Pending) :
    (g.number, p) ∉ t.session.pending := by
  intro hmem
  have hs := h.coherent
  have ht := hs.steps hst
  have hg' : g ∈ t.handed := hst.handed_prefix.subset hg
  obtain ⟨i, c, hi, hp, hin, -⟩ := (ht.table.entries _ _).mp hmem
  rcases ht.borne i c _ hi hp hin with hplaced | ⟨g', hmem', hgi, hgn⟩
  · -- The call has the next number, which nobody has used.
    have hnext := ht.bearing.known i c _ hi (ht.numbering.upcoming i c hi hplaced)
    rw [hin] at hnext
    exact ht.numbering.number_ne_next few hg' (Option.some.inj hnext)
  · obtain rfl := ht.numbering.eq_of_number few hg' hmem' hgn.symm
    obtain ⟨d, hd, -, -, hin, -⟩ := hs.bearing.own i g hg hgi
    by_cases hplace : s.place i = .table
    · exact absent _ ((hs.table.entries _ _).mpr ⟨i, d, hd, hplace, hin, rfl⟩)
    · exact (hst.place_ne_table hs hin hplace).2 hp

/-- **Every call ends on the answer to its own packet, on the loss of the session or on the end of
its wait, in every order of steps.** -/
theorem Reachable.correlated (h : Reachable t) (few : t.handed.length < UInt32.size) :
    Correlated t := by
  have hc := h.coherent
  have hs := h.settled few
  exact {
    packets := (hc.numbering.numbers_apart few).and hc.bearing.once
    returns := fun i c k r hi hk sent hstage => by
      have hends := hc.slots.ended i c r hi sent hstage
      rw [Ends, hk] at hends
      obtain ⟨τ, hτ, hr⟩ := hends
      exact ⟨τ, hτ, hc.came hi hk sent (List.mem_of_mem_head? hτ), hr⟩
    own_slot := hc.slots.apart
    responses := fun i c k n outcome hi hk hτ => by
      obtain ⟨j, d, hd, hdk, hin, j', a, hp, ha, hrest⟩ := hc.hands.told k _ hτ
      obtain rfl := hc.slots.apart _ _ _ _ _ hi hd hk hdk
      refine ⟨⟨j', a, hp, ha, hrest⟩, fun m hm => ?_, fun j hj => ?_⟩
      · have := hc.number_of_handed hm
        rw [hin] at this
        exact (Option.some.inj this).symm
      · exact (hs.eq_of_handed hc.bearing hc.numbering few hin hj).symm
    again := fun s g hreach hsteps hg absent =>
      Coherent.ignores (hreach.absent_of_absent few hsteps hg absent)
    casts := fun i c hi hk sent => by
      obtain ⟨d, hd, hstage⟩ := hc.slots.onward i sent
      rw [hi] at hd
      cases hd
      have hattended := hc.slots.attended i c hi
      cases hs : c.stage with
      | accepted n => exact .inl ⟨n, rfl⟩
      | ended r =>
        have hends := hc.slots.ended i c r hi sent hs
        rw [Ends, hk] at hends
        exact .inr (by rw [hends])
      | waiting n | lapsed n | expired n =>
        rw [hs] at hattended
        exact absurd hk (hattended rfl)
      | _ => simp [hs, Call.Stage.sent, Call.Stage.isEnded] at hstage
    keys := hc.table.keys
    entries := fun n p hmem => by
      obtain ⟨i, c, hi, hp, hin, rfl⟩ := (hc.table.entries n p).mp hmem
      refine ⟨i, c, hi, rfl, ?_⟩
      rcases hc.borne i c n hi hp hin with hplaced | hhanded
      · have hnext := hc.numbering.upcoming i c hi hplaced
        have hin' := hc.bearing.known i c _ hi hnext
        rw [hin] at hin'
        cases hin'
        exact .inl ⟨hplaced, hnext, rfl⟩
      · exact .inr hhanded
    waiting := fun i c k n hi hk hstage hempty => by
      have hin := hc.bearing.known i c n hi (by rw [hstage]; rfl)
      have hhanded := hc.bearing.out i c n hi (by rw [hstage]; rfl) (by rw [hstage]; rfl)
      refine ⟨hhanded, ?_⟩
      by_cases hp : t.place i = .table
      · exact .inl ((hc.table.entries n _).mpr ⟨i, c, hi, hp, hin, rfl⟩)
      · right
        rcases hc.held hi hk (by rw [hstage]; rfl) hin hp (h.not_shared few hhanded) with
          hready | ⟨j, a, -, hrest⟩ | ⟨j, l, -, hrest⟩
        · rw [hempty] at hready
          cases hready
        · exact .inl ⟨j, a, hrest⟩
        · exact .inr ⟨j, l, hrest⟩ }

/-- A call is sent and answered, and its caller returns. -/
theorem reachable_answered : ∃ t, Reachable t ∧ t.handed.length = 1 ∧
    ∃ c, t.calls 0 = some c ∧ c.ticket = some 0 ∧ c.stage = .ended (.ok [7]) := by
  have begun := Relation.ReflTransGen.single
    (Step.beginCall (t := fresh ⟨none, none, .zero, none, ""⟩ .zero .idle) (i := 0) ⟨900, []⟩ rfl)
  have looked := begun.tail (.call (i := 0) rfl nofun)
  have entered := looked.tail (.call (i := 0) rfl fun _ => ⟨rfl, fun i c hc => by
    rcases of_update hc with ⟨-, rfl⟩ | ⟨-, hc⟩
    · rfl
    · rcases of_update hc with ⟨-, rfl⟩ | ⟨-, hc⟩
      · rfl
      · cases hc⟩)
  have ready := entered.tail (.call (i := 0) rfl nofun)
  have offered := ready.tail (.call (i := 0) rfl nofun)
  have accepted := offered.tail (.verdict (i := 0) rfl (.ok ()))
  have waiting := accepted.tail (.call (i := 0) rfl nofun)
  have came := waiting.tail
    (.response (j := 0) ⟨0, 1, 77, 0, .callResponse⟩ 1 (.result [7]) .zero rfl)
  have counted := came.tail (.answer (j := 0) rfl)
  have claimed := counted.tail (.answer (j := 0) rfl)
  have noted := claimed.tail (.answer (j := 0) rfl)
  have woken := noted.tail (.answer (j := 0) rfl)
  have ended := woken.tail (.call (i := 0) rfl nofun)
  exact ⟨_, ⟨_, _, _, ended⟩, rfl, _, rfl, rfl, rfl⟩

theorem correlated_of_answered : ∃ t, Reachable t ∧ t.handed.length < UInt32.size ∧
    (∃ c, t.calls 0 = some c ∧ c.ticket = some 0 ∧ c.stage = .ended (.ok [7])) ∧
    Correlated t := by
  obtain ⟨t, ht, hlen, hcall⟩ := reachable_answered
  have few : t.handed.length < UInt32.size := by rw [hlen]; decide
  exact ⟨t, ht, few, hcall, ht.correlated few⟩

end Traffic

end Federate
