/-
A loss strands no caller, as long as numbers are not used again. Once the loss
that has won has emptied the table and woken whoever was in there, no caller
waits or will wait at a slot that nobody fills: a call that has looked for a
second time was in the table by then, or an answer had taken it, and one that
has not looked for a second time gives up. Calls that begin after the loss never
get to the link, and what a loss does to the session is done by one loss alone.

Numbers have 32 bits, and nothing in a session keeps them from coming round. A
call that is under way while 2^32 packets go by can lose its entry to another
call under the same number, and then it waits for ever
(`stranded_by_reused_number`); up to then none can.
-/
import Federate.Proofs.Session.Coherence
namespace Federate

open Function (update)

/-- The loss has emptied the table and woken everybody who was in there. -/
def Loss.Stage.through : Loss.Stage → Bool
  | .waking [] | .shaking | .noting | .shutting | .falling | .telling | .ended => true
  | _ => false

theorem Loss.Stage.emptied_of_through {s : Loss.Stage} (h : s.through = true) :
    s.emptied = true := by
  cases s <;> first | rfl | cases h

theorem Loss.not_holds_of_through {l : Loss} (h : l.stage.through = true) (k : Nat) :
    ¬ l.Holds k := by
  intro hx
  obtain ⟨rest, tag, hs, hmem⟩ := hx
  cases rest with
  | nil => cases hmem
  | cons => rw [hs] at h; cases h

/-! ## What a step does to one call -/

/-- How a call comes from one stage to the next. -/
inductive Call.Moves (lost : Bool) : Call.Stage → Call.Stage → Prop where
  | turnedAway : lost = true → Moves lost .arriving (.ended (.error Session.absent))
  | looks : lost = false → Moves lost .arriving .entering
  | enters {n : UInt32} : Moves lost .entering (.entered n)
  | givesUp {n : UInt32} : lost = true → Moves lost (.entered n) (.ended (.error Session.absent))
  | looksAgain {n : UInt32} : lost = false → Moves lost (.entered n) (.ready n)
  | hands {m n : UInt32} {packet : Bytes} : Moves lost (.ready m) (.offered m n packet)
  | goesOut {m n : UInt32} {packet : Bytes} : Moves lost (.offered m n packet) (.accepted n)
  | refused {m n : UInt32} {packet : Bytes} {e : Fault} :
    Moves lost (.offered m n packet) (.ended (.error e))
  | waits {n : UInt32} : Moves lost (.accepted n) (.waiting n)
  | leaves {n : UInt32} : Moves lost (.accepted n) (.ended (.ok []))
  | collects {n : UInt32} {r : Except Fault Bytes} : Moves lost (.waiting n) (.ended r)
  | lapses {n : UInt32} : Moves lost (.waiting n) (.lapsed n)
  | withdraws {n : UInt32} : Moves lost (.lapsed n) (.expired n)
  | expires {n : UInt32} {r : Except Fault Bytes} : Moves lost (.expired n) (.ended r)

/-- Once the session is lost, the call will not wait any more. -/
def Call.Stage.barred : Call.Stage → Bool
  | .arriving | .entering | .entered _ | .lapsed _ | .expired _ | .ended _ => true
  | _ => false

theorem Call.Stage.over_of_unbarred {s : Call.Stage} (h : s.barred = false) : s.over = false := by
  cases s <;> first | rfl | cases h

theorem Call.Stage.exists_number_of_unbarred {s : Call.Stage} (h : s.barred = false) :
    ∃ n, s.number? = some n := by
  cases s <;> first | exact ⟨_, rfl⟩ | cases h

/-- The call has not looked yet, or it has been turned away. -/
def Call.Stage.outside : Call.Stage → Prop
  | .arriving => True
  | .ended r => r = .error Session.absent
  | _ => False

theorem Call.Moves.barred {s s' : Call.Stage} (h : Call.Moves true s s') (hs : s.barred = true) :
    s'.barred = true := by
  cases h <;> first | rfl | contradiction

theorem Call.Moves.outside {s s' : Call.Stage} (h : Call.Moves true s s') (hs : s.outside) :
    s'.outside := by
  cases h <;> first | rfl | contradiction

namespace Traffic

variable {t t' : Traffic}

/-- In one step a call stays as it is, begins, or moves. -/
theorem Change.call (hc : Change t t') {i : Nat} {c : Call} (h : t'.calls i = some c) :
    t.calls i = some c ∨ t.calls i = none ∧ c.stage = .arriving ∨
      ∃ d s, t.calls i = some d ∧ c = d.goTo s ∧ Call.Moves t.session.lost d.stage s := by
  have one : ∀ {j d s}, t.calls j = some d → Call.Moves t.session.lost d.stage s →
      update t.calls j (some (d.goTo s)) i = some c → t.calls i = some c ∨
        t.calls i = none ∧ c.stage = .arriving ∨
          ∃ d s, t.calls i = some d ∧ c = d.goTo s ∧ Call.Moves t.session.lost d.stage s := by
    intro j d s known moves h
    rcases of_update h with ⟨rfl, rfl⟩ | ⟨-, h⟩
    · exact .inr (.inr ⟨d, s, known, rfl, moves⟩)
    · exact .inl h
  cases hc with
  | callBegins envelope new | castBegins envelope new =>
    rcases of_update h with ⟨rfl, rfl⟩ | ⟨-, h⟩
    · exact .inr (.inl ⟨new, rfl⟩)
    · exact .inl h
  | turnedAway known stage lost => exact one known (stage ▸ .turnedAway lost) h
  | looks known stage lost => exact one known (stage ▸ .looks lost) h
  | enters known stage => exact one known (stage ▸ .enters) h
  | givesUp known stage lost => exact one known (stage ▸ .givesUp lost) h
  | looksAgain known stage lost => exact one known (stage ▸ .looksAgain lost) h
  | hands known stage => exact one known (stage ▸ .hands) h
  | goesOut known stage => exact one known (stage ▸ .goesOut) h
  | refused known stage => exact one known (stage ▸ .refused) h
  | waits known stage => exact one known (stage ▸ .waits) h
  | leaves known stage => exact one known (stage ▸ .leaves) h
  | collects known stage => exact one known (stage ▸ .collects) h
  | lapses known stage => exact one known (stage ▸ .lapses) h
  | withdraws known stage => exact one known (stage ▸ .withdraws) h
  | expires known stage => exact one known (stage ▸ .expires) h
  | _ => exact .inl h

/-- A session that is lost stays lost. -/
theorem Change.lost (hc : Change t t') (hl : t.session.lost = true) : t'.session.lost = true := by
  cases hc with
  | strikes => rfl
  | aside p agrees | received p agrees | answered p agrees | counts p agrees | notes p agrees
  | tears p agrees => exact agrees.lost.trans hl
  | _ => exact hl

theorem Steps.lost (hs : Steps t t') (hl : t.session.lost = true) : t'.session.lost = true := by
  induction hs with
  | refl => exact hl
  | tail _ hstep ih => exact hstep.change.lost ih

/-- A call that has not looked for a second time when the session is lost never waits. -/
theorem Steps.barred (hs : Steps t t') (hl : t.session.lost = true) {i : Nat}
    (h : ∀ c, t.calls i = some c → c.stage.barred = true) (c : Call)
    (hc : t'.calls i = some c) : c.stage.barred = true := by
  induction hs generalizing c with
  | refl => exact h c hc
  | @tail u v hsteps hstep ih =>
    rcases hstep.change.call hc with hc | ⟨-, hs⟩ | ⟨d, s, hd, rfl, hmoves⟩
    · exact ih c hc
    · rw [hs]; rfl
    · rw [Steps.lost hsteps hl] at hmoves
      exact hmoves.barred (ih d hd)

/-- The call has not looked yet, or has been turned away, without a packet. -/
structure Outside (t : Traffic) (i : Nat) : Prop where
  stage : ∀ c, t.calls i = some c → c.stage.outside
  unhanded : ∀ h ∈ t.handed, h.caller ≠ some i
  unsent : i ∉ t.sent

/-- A call that has not looked when the session is lost is turned away. -/
theorem Outside.change {i : Nat} (h : Outside t i) (hl : t.session.lost = true)
    (hc : Change t t') : Outside t' i where
  stage c hc' := by
    rcases hc.call hc' with hc | ⟨-, hs⟩ | ⟨d, s, hd, rfl, hmoves⟩
    · exact h.stage c hc
    · rw [hs]; trivial
    · rw [hl] at hmoves
      exact hmoves.outside (h.stage d hd)
  unhanded g hg hi := by
    cases hc with
    | hands known stage =>
      rcases List.mem_append.mp hg with hg | hg
      · exact h.unhanded g hg hi
      · rw [List.mem_singleton.mp hg] at hi
        cases hi
        have := h.stage _ known
        rw [stage] at this
        exact this
    | sends m free =>
      rcases List.mem_append.mp hg with hg | hg
      · exact h.unhanded g hg hi
      · rw [List.mem_singleton.mp hg] at hi
        cases hi
    | _ => exact h.unhanded g hg hi
  unsent hi := by
    cases hc with
    | goesOut known stage =>
      rcases List.mem_cons.mp hi with rfl | hi
      · have := h.stage _ known
        rw [stage] at this
        exact this
      · exact h.unsent hi
    | _ => exact h.unsent hi

theorem Steps.outside {i : Nat} (hs : Steps t t') (hl : t.session.lost = true)
    (h : Outside t i) : Outside t' i := by
  induction hs with
  | refl => exact h
  | tail hsteps hstep ih => exact ih.change (Steps.lost hsteps hl) hstep.change

/-! ## What a loss leaves behind -/

/-- The call waits, or can still come to wait. -/
def MayWait (t : Traffic) (i : Nat) : Prop :=
  ∃ s, Steps t s ∧ ∃ c n, s.calls i = some c ∧ c.stage = .waiting n

/-- What a loss leaves behind. -/
structure Released (t : Traffic) : Prop where
  /-- When the loss is through, whoever waits or can still come to wait has something in the slot,
  or an answer has the entry and will put it there. The exception takes 2^32 packets. -/
  callers : ∀ j l i c k, t.losses j = some l → l.stage.through = true → t.calls i = some c →
    c.ticket = some k → t.MayWait i →
      (t.session.slot k).ready = true ∨ (∃ j a, t.answers j = some a ∧ a.Holds k) ∨
        UInt32.size ≤ t.handed.length ∧ Shared t.number i
  /-- A caller that the loss has drained, and whose wait was not over, gets the reason of the
  loss. -/
  drained : ∀ i c k j l, t.place i = .loss j → t.losses j = some l → t.calls i = some c →
    c.ticket = some k →
      (i ∈ t.sent → ∀ r, c.stage = .ended r → (∀ n, (t.tidings k).head? ≠ some (.expiry n)) →
        r = .error (.known .notConnected l.reason)) ∧
      ∀ n, c.stage = .waiting n → l.stage.through = true →
        (c.step t.session).1.stage = .ended (.error (.known .notConnected l.reason))
  /-- A call that begins, or looks for the first time, after the loss is turned away on its first
  step, and nothing of it is handed to the link. -/
  late : t.session.lost = true → ∀ i, (∀ c, t.calls i = some c → c.stage = .arriving) →
    ∀ u, Steps t u → (∀ h ∈ u.handed, h.caller ≠ some i) ∧ i ∉ u.sent ∧
      ∀ c, u.calls i = some c → c.stage = .ended (.error Session.absent) ∨
        c.stage = .arriving ∧ (c.step u.session).1.stage = .ended (.error Session.absent)
  /-- One loss does to the session what a loss does, each thing once. -/
  effects : ∃ j, (∀ e ∈ t.effects, e.1 = j) ∧ t.effects.Nodup
  /-- Any other loss leaves the session alone. -/
  others : t.session.lost = true → ∃ j, ∀ k l, t.losses k = some l → k ≠ j →
    (l.step t.presence).2 = t.presence ∧ l.effect? = none

/-- As long as the numbers last, a call that has looked for a second time has its number alone. -/
theorem Reachable.not_shared_of_unbarred (h : Reachable t) (few : t.handed.length < UInt32.size)
    {i : Nat} {c : Call} (hc : t.calls i = some c) (unbarred : c.stage.barred = false) :
    ¬ Shared t.number i := by
  have hco := h.coherent
  cases hs : c.stage with
  | ready n =>
    intro hx
    obtain ⟨j, m, hji, him, hjm⟩ := hx
    have hplaced : c.stage.placed = true := by rw [hs]; rfl
    have hnext := hco.bearing.known i c _ hc (hco.numbering.upcoming i c hc hplaced)
    rw [him] at hnext
    cases hnext
    rcases h.settled few j _ hjm with ⟨g, hg, -, hgn⟩ | ⟨d, hd, hp⟩ | ⟨-, hready, -⟩
    · exact hco.numbering.number_ne_next few hg hgn
    · exact hji (hco.numbering.turn _ _ _ _ hd hc (Call.Stage.holds_of_placed hp)
        (Call.Stage.holds_of_placed hplaced))
    · have := hready i c hc
      rw [hs] at this
      cases this
  | offered m n packet | accepted n | waiting n =>
    exact h.not_shared few (hco.bearing.out i c n hc (by rw [hs]; rfl) (by rw [hs]; rfl))
  | _ => rw [hs] at unbarred; cases unbarred

namespace Coherent

/-- Only the calls that have looked for a second time can come to wait once the session is lost. -/
theorem unbarred_of_mayWait {i : Nat} {c : Call} (hl : t.session.lost = true)
    (hc : t.calls i = some c) (hw : t.MayWait i) : c.stage.barred = false := by
  obtain ⟨s, hs, d, n, hd, hstage⟩ := hw
  by_contra hb
  have hbarred : ∀ e, t.calls i = some e → e.stage.barred = true := by
    intro e he
    rw [hc] at he
    cases he
    simpa using hb
  have := hs.barred hl hbarred d hd
  rw [hstage] at this
  cases this

theorem lost_of_won (h : Coherent t) {j : Nat} {l : Loss} (hl : t.losses j = some l)
    (won : l.stage.won = true) : t.session.lost = true :=
  h.losing.struck.mpr ⟨j, l, hl, won⟩

/-- The loss that empties the table is the only one. -/
theorem eq_of_emptied (h : Coherent t) {j k : Nat} {l m : Loss} (hl : t.losses j = some l)
    (hm : t.losses k = some m) (he : l.stage.emptied = true) (he' : m.stage.emptied = true) :
    j = k :=
  h.losing.one j k l m hl hm (Loss.Stage.won_of_emptied he) (Loss.Stage.won_of_emptied he')

theorem callers (h : Coherent t) {j : Nat} {l : Loss} {i : Nat} {c : Call} {k : Nat}
    (hl : t.losses j = some l) (through : l.stage.through = true) (hc : t.calls i = some c)
    (hk : c.ticket = some k) (unbarred : c.stage.barred = false) (alone : ¬ Shared t.number i) :
    (t.session.slot k).ready = true ∨ ∃ j a, t.answers j = some a ∧ a.Holds k := by
  have emptied := Loss.Stage.emptied_of_through through
  -- A call that is still in the table has yet to look for a second time, and this one has.
  have away : t.place i ≠ .table := by
    intro hp
    obtain ⟨n, hn⟩ := h.swept j l i c hl emptied hc hp
    rw [hn] at unbarred
    cases unbarred
  have still := Call.Stage.over_of_unbarred unbarred
  obtain ⟨n, hn⟩ := Call.Stage.exists_number_of_unbarred unbarred
  rcases h.held hc hk still (h.bearing.known i c n hc hn) away alone with
    hready | ⟨j', a, -, ha, -, hholds⟩ | ⟨j', m, hp, hm, hholds⟩
  · exact .inl hready
  · exact .inr ⟨j', a, ha, hholds⟩
  · obtain ⟨m', hm', emptied', -⟩ := h.hands.loss i c j' hc hp
    rw [hm] at hm'
    cases hm'
    obtain rfl := h.eq_of_emptied hl hm emptied emptied'
    rw [hl] at hm
    cases hm
    exact absurd hholds (Loss.not_holds_of_through through k)

/-- Nothing reaches the slot of a drained caller but the loss, or the end of its wait. -/
theorem told_of_drained (h : Coherent t) {i : Nat} {c : Call} {k j : Nat} {l : Loss}
    (hp : t.place i = .loss j) (hl : t.losses j = some l) (hc : t.calls i = some c)
    (hk : c.ticket = some k) {τ : Tiding} (hτ : τ ∈ t.tidings k) :
    τ = .loss l.reason ∨ ∃ n, τ = .expiry n := by
  obtain ⟨i', d, hd, hdk, hs⟩ := h.hands.told k τ hτ
  obtain rfl := h.slots.apart _ _ _ _ _ hc hd hk hdk
  cases τ with
  | response n outcome =>
    obtain ⟨-, j', a, hp', -⟩ := hs
    rw [hp] at hp'
    cases hp'
  | loss reason =>
    obtain ⟨j', m, hp', hm, rfl⟩ := hs
    rw [hp] at hp'
    cases hp'
    rw [hl] at hm
    cases hm
    exact .inl rfl
  | expiry n => exact .inr ⟨n, rfl⟩

/-- A drained caller that still waits returns with the reason of the loss. -/
theorem returns_of_drained (h : Coherent t) {i : Nat} {c : Call} {k j : Nat} {l : Loss}
    (hp : t.place i = .loss j) (hl : t.losses j = some l) (hc : t.calls i = some c)
    (hk : c.ticket = some k) {n : UInt32} (waiting : c.stage = .waiting n)
    (through : l.stage.through = true) :
    (c.step t.session).1.stage = .ended (.error (.known .notConnected l.reason)) := by
  have still : c.stage.over = false := by rw [waiting]; rfl
  obtain ⟨l', hl', -, htold⟩ := h.hands.loss i c j hc hp
  rw [hl] at hl'
  cases hl'
  have hτ := (htold k hk).resolve_left (Loss.not_holds_of_through through k)
  obtain ⟨w, hw⟩ := h.slots.filled h.hands hc hk still hτ
  have hfill := h.slots.waiting i c k hc hk still
  rw [hw] at hfill
  obtain ⟨σ, hσ, hσw⟩ := Slots.head?_of_fill (Option.some.inj hfill).symm
  have hw' : w = .error (.known .notConnected l.reason) := by
    rcases h.told_of_drained hp hl hc hk (List.mem_of_mem_head? hσ) with rfl | ⟨m, rfl⟩
    · exact (Option.some.inj hσw).symm
    · cases hσw
  have hslot : t.session.slot k = .filled w := by rw [Session.slot, hw]; rfl
  simp only [Call.step, waiting, hk, Session.collect, hslot, Slot.take, hw']
  rfl

end Coherent

/-- **A loss strands no caller, in any order of steps.** -/
theorem Reachable.released (h : Reachable t) : Released t := by
  have hc := h.coherent
  exact {
    callers := fun j l i c k hl through hi hk hw => by
      have hlost := hc.lost_of_won hl
        (Loss.Stage.won_of_emptied (Loss.Stage.emptied_of_through through))
      have unbarred := Coherent.unbarred_of_mayWait hlost hi hw
      by_cases hshared : Shared t.number i
      · refine .inr (.inr ⟨Nat.le_of_not_lt fun few => ?_, hshared⟩)
        exact h.not_shared_of_unbarred few hi unbarred hshared
      · exact (hc.callers hl through hi hk unbarred hshared).imp_right .inl
    drained := fun i c k j l hp hl hi hk =>
      ⟨fun sent r hr still => by
        have hends := hc.slots.ended i c r hi sent hr
        rw [Ends, hk] at hends
        obtain ⟨τ, hτ, rfl⟩ := hends
        rcases hc.told_of_drained hp hl hi hk (List.mem_of_mem_head? hτ) with rfl | ⟨n, rfl⟩
        · rfl
        · exact absurd hτ (still n),
       fun n hn through => hc.returns_of_drained hp hl hi hk hn through⟩
    late := fun hl i early u hu => by
      have start : Outside t i := {
        stage := fun c hi => by rw [early c hi]; trivial
        unhanded := fun g hg hgi => by
          obtain ⟨c, hi, hearly, -⟩ := hc.bearing.own i g hg hgi
          rw [early c hi] at hearly
          cases hearly
        unsent := fun hsent => by
          obtain ⟨c, hi, hs⟩ := hc.slots.onward i hsent
          rw [early c hi] at hs
          rcases hs with hs | hs <;> cases hs }
      have hout := hu.outside hl start
      refine ⟨hout.unhanded, hout.unsent, fun c hi => ?_⟩
      have hstage := hout.stage c hi
      cases hs : c.stage with
      | arriving =>
        refine .inr ⟨rfl, ?_⟩
        simp only [Call.step, hs, hu.lost hl, if_true]
        rfl
      | ended r =>
        rw [hs] at hstage
        exact .inl (congrArg Call.Stage.ended hstage)
      | _ =>
        rw [hs] at hstage
        exact hstage.elim
    effects := by
      cases hl : t.session.lost with
      | false => exact ⟨0, by simp [hc.losing.untouched hl]⟩
      | true =>
        obtain ⟨j, l, hj, won⟩ := hc.losing.struck.mp hl
        refine ⟨j, ?_⟩
        rw [hc.losing.did j l hj won]
        refine ⟨fun e he => ?_, List.pairwise_map.mpr ?_⟩
        · obtain ⟨m, -, rfl⟩ := List.mem_map.mp he
          rfl
        · exact l.nodup_performed.imp fun hne heq => hne (Prod.ext_iff.mp heq).2
    others := fun hl => by
      obtain ⟨j, m, hj, won⟩ := hc.losing.struck.mp hl
      refine ⟨j, fun k l hk hne => ?_⟩
      have hpres : t.presence.session.lost = true := hl
      cases hs : l.stage with
      | striking =>
        exact ⟨by simp only [Loss.step, hs, hpres, if_true], by simp only [Loss.effect?, hs]⟩
      | late =>
        exact ⟨by simp only [Loss.step, hs], by simp only [Loss.effect?, hs]⟩
      | _ => exact absurd (hc.losing.one _ _ _ _ hk hj (by rw [hs]; rfl) won) hne }

/-- A caller waits, and a loss wakes it. -/
theorem reachable_woken : ∃ t, Reachable t ∧
    (∃ l, t.losses 0 = some l ∧ l.stage.through = true ∧ l.reason = "gone") ∧
    ∃ c, t.calls 0 = some c ∧ c.ticket = some 0 ∧ c.stage = .waiting 1 := by
  have begun := Relation.ReflTransGen.single
    (Step.beginCall (t := fresh ⟨none, none, .zero, none, ""⟩ .zero .idle) (i := 0) ⟨900, []⟩ rfl)
  have looked := begun.tail (.call (i := 0) rfl nofun)
  have entered := looked.tail (.call (i := 0) rfl fun _ => ⟨rfl, fun i c hc => by
    rcases of_update hc with ⟨-, rfl⟩ | ⟨-, hc⟩
    · rfl
    · rcases of_update hc with ⟨-, rfl⟩ | ⟨-, hc⟩
      · rfl
      · cases hc⟩)
  have ready := entered.tail (.call (i := 0) rfl nofun)
  have offered := ready.tail (.call (i := 0) rfl nofun)
  have accepted := offered.tail (.verdict (i := 0) rfl (.ok ()))
  have waiting := accepted.tail (.call (i := 0) rfl nofun)
  have threatened := waiting.tail (.beginLoss (j := 0) "gone" rfl)
  have struck := threatened.tail (.loss (j := 0) rfl)
  have seen := struck.tail (.loss (j := 0) rfl)
  have drained := seen.tail (.loss (j := 0) rfl)
  have woken := drained.tail (.loss (j := 0) rfl)
  exact ⟨_, ⟨_, _, _, woken⟩, ⟨_, rfl, rfl, rfl⟩, _, rfl, rfl, rfl⟩

theorem released_of_woken : ∃ t, Reachable t ∧
    (∃ l, t.losses 0 = some l ∧ l.stage.through = true ∧ l.reason = "gone") ∧
    (∃ c, t.calls 0 = some c ∧ c.ticket = some 0 ∧ c.stage = .waiting 1) ∧ Released t := by
  obtain ⟨t, ht, hloss, hcall⟩ := reachable_woken
  exact ⟨t, ht, hloss, hcall, ht.released⟩

/-! ## When numbers come round -/

/-- An entry that its call has taken back, or another call has pushed out, does not come back. -/
theorem Steps.withdrawn {i : Nat} (h : Reachable t) (hs : Steps t t')
    (away : t.place i = .withdrawn) : t'.place i = .withdrawn := by
  induction hs with
  | refl => exact away
  | @tail u v hsteps hstep ih =>
    obtain ⟨limits, now, standing, before⟩ := h
    have hco : Coherent u := Reachable.coherent ⟨limits, now, standing, before.trans hsteps⟩
    cases hstep.change with
    | @enters j c known stage free =>
      -- A call that enters has had no entry before.
      have hne : i ≠ j := by
        rintro rfl
        have unnumbered := hco.bearing.unnumbered fun d hd => by
          rw [known] at hd
          cases hd
          rw [stage]
          rfl
        rw [(hco.table.nowhere i).mpr unnumbered] at ih
        cases ih
      exact (Function.update_of_ne hne ..).trans (moved_eq ih (by simp))
    | givesUp | refused | withdraws | claims => exact moved_eq ih (by simp)
    | drains => exact emptied_eq ih (by simp)
    | _ => exact ih

/-- Nothing comes to a caller whose entry is gone, for as long as it waits. -/
theorem Reachable.unfilled_of_withdrawn (h : Reachable t) {i k : Nat} {c : Call}
    (away : t.place i = .withdrawn) (hi : t.calls i = some c) (hk : c.ticket = some k)
    (still : c.stage.over = false) : (t.session.slot k).ready = false := by
  have hco := h.coherent
  have silent : t.tidings k = [] := by
    refine List.eq_nil_iff_forall_not_mem.mpr fun τ hτ => ?_
    have heard := hco.slots.wakening_of_waiting hco.hands hi hk still hτ
    obtain ⟨j, d, hd, hdk, source⟩ := hco.hands.told k τ hτ
    obtain rfl := hco.slots.apart _ _ _ _ _ hi hd hk hdk
    cases τ with
    | response n outcome =>
      obtain ⟨-, j', a, taken, -⟩ := source
      rw [away] at taken
      cases taken
    | loss reason =>
      obtain ⟨j', l, drained, -⟩ := source
      rw [away] at drained
      cases drained
    | expiry n => exact heard rfl
  rw [Session.slot, hco.slots.waiting i c k hi hk still, silent]
  rfl

/-- The traffic when a certain number is next, and no other sender has the turn. -/
def comeTo (t : Traffic) (n : UInt32) (handed : List Handing) : Traffic :=
  { t.setSession { t.session with nextSequence := n } with handed := handed, outgoing := none }

/-- Other senders use up one number after another. -/
theorem Steps.comeTo (hs : Steps t t') (free : t'.Free) (k : Nat) :
    ∃ handed, Steps t (t'.comeTo (t'.next + UInt32.ofNat k) handed) := by
  induction k with
  | zero =>
    have same : t'.next + UInt32.ofNat 0 = t'.next := UInt32.add_zero t'.next
    have silent : t'.outgoing = none := free.1
    refine ⟨t'.handed, ?_⟩
    rw [same, Traffic.comeTo, ← silent]
    exact hs
  | succ k ih =>
    obtain ⟨handed, before⟩ := ih
    have next : t'.next + UInt32.ofNat (k + 1) = t'.next + UInt32.ofNat k + 1 := by
      rw [UInt32.ofNat_add, ← UInt32.add_assoc]
      rfl
    rw [next]
    exact ⟨_, (before.tail (.send .heartbeat ⟨rfl, free.2⟩)).tail .sent⟩

/-- A caller waits for its answer without a limit, and numbers come round to its own: the call that
enters the table next pushes its entry out. When the session is lost, the loss wakes everybody whom
it found in the table, but not that caller, who waits for ever. -/
theorem stranded_by_reused_number : ∃ t, Reachable t ∧
    (∃ l, t.losses 0 = some l ∧ l.stage.through = true ∧ l.reason = "gone") ∧
    (∃ c, t.calls 0 = some c ∧ c.ticket = some 0 ∧ c.stage = .waiting 1) ∧ 0 ∈ t.sent ∧
    (t.session.slot 0).ready = false ∧ (∀ j, t.answers j = none) ∧
    (∀ j l, t.losses j = some l → ¬ l.Holds 0) ∧
    ∀ u, Steps t u → ∀ c n, u.calls 0 = some c → c.ticket = some 0 → c.stage = .waiting n →
      (u.session.slot 0).ready = false := by
  have begun := Relation.ReflTransGen.single
    (Step.beginCall (t := fresh ⟨none, none, .zero, none, ""⟩ .zero .idle) (i := 0) ⟨900, []⟩ rfl)
  have looked := begun.tail (.call (i := 0) rfl nofun)
  have entered := looked.tail (.call (i := 0) rfl fun _ => ⟨rfl, fun
    | 0, c, hc => by cases hc; rfl
    | i + 1, c, hc => by cases hc⟩)
  have ready := entered.tail (.call (i := 0) rfl nofun)
  have offered := ready.tail (.call (i := 0) rfl nofun)
  have accepted := offered.tail (.verdict (i := 0) rfl (.ok ()))
  have waiting := accepted.tail (.call (i := 0) rfl nofun)
  obtain ⟨handed, round⟩ := Steps.comeTo waiting ⟨rfl, fun
    | 0, c, hc => by cases hc; rfl
    | i + 1, c, hc => by cases hc⟩ 4294967295
  have again := round.tail (.beginCall (i := 1) ⟨900, []⟩ rfl)
  have looked := again.tail (.call (i := 1) rfl nofun)
  have entered := looked.tail (.call (i := 1) rfl fun _ => ⟨rfl, fun
    | 0, c, hc => by cases hc; rfl
    | 1, c, hc => by cases hc; rfl
    | i + 2, c, hc => by cases hc⟩)
  have threatened := entered.tail (.beginLoss (j := 0) "gone" rfl)
  have struck := threatened.tail (.loss (j := 0) rfl)
  have seen := struck.tail (.loss (j := 0) rfl)
  have drained := seen.tail (.loss (j := 0) rfl)
  have woken := drained.tail (.loss (j := 0) rfl)
  have reachable : Reachable _ := ⟨_, _, _, woken⟩
  refine ⟨_, reachable, ⟨_, rfl, rfl, rfl⟩, ⟨_, rfl, rfl, rfl⟩, List.mem_singleton_self 0, rfl,
    fun _ => rfl, ?_, fun u hu c n hc hk stage => ?_⟩
  · rintro (_ | j) l hl ⟨rest, tag, stage, held⟩
    · cases hl
      cases stage
      cases held
    · cases hl
  · refine Reachable.unfilled_of_withdrawn ⟨_, _, _, woken.trans hu⟩
      (Steps.withdrawn reachable hu rfl) hc hk ?_
    rw [stage]
    rfl

end Traffic

end Federate
