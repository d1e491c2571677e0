/-
What a step of the traffic can change, said once: one case for each thing that
a call, an answer, a loss or a sender does, with all that it touches. Every
invariant of the traffic goes through these cases (`Step.change`).
-/
import Federate.Proofs.Session.Traffic
namespace Federate

open Function (update)

/-- A loss's step after the callers have been woken, with its effect. -/
inductive Loss.Tears (l : Loss) : Effect → Loss.Stage → Prop where
  | handshake (stage : l.stage = .shaking) : Tears l .handshake .noting
  | terminated (stage : l.stage = .noting) : Tears l .terminated .shutting
  | linkClosing (stage : l.stage = .shutting) (closing : l.closing = true) : Tears l .link .ended
  | link (stage : l.stage = .shutting) (closing : l.closing = false) : Tears l .link .falling
  | standing (stage : l.stage = .falling) : Tears l .standing .telling
  | notice (stage : l.stage = .telling) : Tears l .notice .ended

namespace Traffic

variable {t t' : Traffic}

/-- The session's next number. -/
abbrev next (t : Traffic) : UInt32 := t.session.nextSequence

/-- What one step changes. -/
inductive Change (t : Traffic) : Traffic → Prop where
  | stays : Change t t
  | aside (p : Presence) (agrees : Agrees t.presence p) : Change t { t with presence := p }
  | received (p : Presence) (agrees : Agrees t.presence p) (packet : Packet) :
    Change t { t with presence := p, received := t.received ++ [packet] }
  -- Calls, from their beginning to their end.
  | callBegins {i : Nat} (envelope : Envelope) (new : t.calls i = none) :
    Change t ((t.setSession { t.session with slots := t.session.slots ++ [.empty] }).setCall i
      ⟨envelope, some t.session.slots.length, .arriving⟩)
  | castBegins {i : Nat} (envelope : Envelope) (new : t.calls i = none) :
    Change t (t.setCall i ⟨envelope, none, .arriving⟩)
  | turnedAway {i : Nat} {c : Call} (known : t.calls i = some c) (stage : c.stage = .arriving)
    (lost : t.session.lost = true) :
    Change t (t.setCall i (c.goTo (.ended (.error Session.absent))))
  | looks {i : Nat} {c : Call} (known : t.calls i = some c) (stage : c.stage = .arriving)
    (lost : t.session.lost = false) : Change t (t.setCall i (c.goTo .entering))
  | enters {i : Nat} {c : Call} (known : t.calls i = some c) (stage : c.stage = .entering)
    (free : t.Free) :
    Change t (({ t with
        number := update t.number i (some t.next)
        place := update (moved t.place t.number t.next .withdrawn) i .table }.setSession
      (t.session.enter t.next c.pending)).setCall i (c.goTo (.entered t.next)))
  | givesUp {i : Nat} {c : Call} {n : UInt32} (known : t.calls i = some c)
    (stage : c.stage = .entered n) (lost : t.session.lost = true) :
    Change t (({ t with place := moved t.place t.number n .withdrawn }.setSession
      (t.session.withdraw n)).setCall i (c.goTo (.ended (.error Session.absent))))
  | looksAgain {i : Nat} {c : Call} {n : UInt32} (known : t.calls i = some c)
    (stage : c.stage = .entered n) (lost : t.session.lost = false) :
    Change t (t.setCall i (c.goTo (.ready n)))
  | hands {i : Nat} {c : Call} {n : UInt32} (known : t.calls i = some c)
    (stage : c.stage = .ready n) :
    Change t (({ t with
        handed := t.handed ++ [Handing.mk (some i) t.next (t.packetOf c)] }.setSession
      (t.session.offer (.callRequest c.envelope)).2).setCall i
        (c.goTo (.offered n t.next (t.packetOf c))))
  | goesOut {i : Nat} {c : Call} {m n : UInt32} {packet : Bytes} (known : t.calls i = some c)
    (stage : c.stage = .offered m n packet) :
    Change t ({ t with sent := i :: t.sent }.setCall i (c.goTo (.accepted n)))
  | refused {i : Nat} {c : Call} {m n : UInt32} {packet : Bytes} (known : t.calls i = some c)
    (stage : c.stage = .offered m n packet) (e : LinkFault) :
    Change t (({ t with place := moved t.place t.number m .withdrawn }.setSession
      (t.session.withdraw m)).setCall i (c.goTo (.ended (.error e.fault))))
  | waits {i : Nat} {c : Call} {n : UInt32} {k : Nat} (known : t.calls i = some c)
    (stage : c.stage = .accepted n) (ticket : c.ticket = some k) :
    Change t ((t.setSession (t.session.count .countCall)).setCall i (c.goTo (.waiting n)))
  | leaves {i : Nat} {c : Call} {n : UInt32} (known : t.calls i = some c)
    (stage : c.stage = .accepted n) (ticket : c.ticket = none) :
    Change t ((t.setSession (t.session.count .countCast)).setCall i (c.goTo (.ended (.ok []))))
  | collects {i : Nat} {c : Call} {n : UInt32} {k : Nat} {w : Session.Wakening}
    (known : t.calls i = some c) (stage : c.stage = .waiting n) (ticket : c.ticket = some k)
    (filled : t.session.slot k = .filled w) :
    Change t ((t.setSession { t.session with
      slots := t.session.slots.modify k (·.take.2) }).setCall i
        (c.goTo (.ended (Call.result w))))
  | lapses {i : Nat} {c : Call} {n : UInt32} {k : Nat} (known : t.calls i = some c)
    (stage : c.stage = .waiting n) (ticket : c.ticket = some k)
    (waiting : (t.session.slot k).ready = false) :
    Change t ((t.tell k (.expiry n)).setCall i (c.goTo (.lapsed n)))
  | withdraws {i : Nat} {c : Call} {n : UInt32} (known : t.calls i = some c)
    (stage : c.stage = .lapsed n) :
    Change t (({ t with place := moved t.place t.number n .withdrawn }.setSession
      (t.session.withdraw n)).setCall i (c.goTo (.expired n)))
  | expires {i : Nat} {c : Call} {n : UInt32} (known : t.calls i = some c)
    (stage : c.stage = .expired n) :
    Change t (t.setCall i (c.goTo (.ended ((Tiding.expiry n).result t.session.limits))))
  -- Other senders.
  | sends (m : Message) (free : t.Free) :
    Change t { t.setSession (t.session.offer m).2 with
      outgoing := some (t.session.offer m).1
      handed := t.handed ++ [⟨none, t.next, (t.session.offer m).1⟩] }
  | spoken : Change t { t with outgoing := none }
  -- Answers.
  | answered {j : Nat} {n : UInt32} {outcome : CallOutcome} (p : Presence)
    (agrees : Agrees t.presence p) (header : Packet.Header) (new : t.answers j = none) :
    Change t ({ t with
        presence := p
        received := t.received ++ [Packet.mk header (.callResponse n outcome)] }.setAnswer j
      (.fresh n outcome))
  | counts {j : Nat} {a : Receipt} (p : Presence) (agrees : Agrees t.presence p)
    (known : t.answers j = some a) (stage : a.stage = .counting) :
    Change t ({ t with presence := p }.setAnswer j (a.goTo .claiming))
  | claims {j : Nat} {a : Receipt} (known : t.answers j = some a) (stage : a.stage = .claiming) :
    Change t (({ t with place := moved t.place t.number a.number (.answer j) }.setSession
      (t.session.withdraw a.number)).setAnswer j
        (a.goTo (Receipt.found (t.session.pending.lookup a.number))))
  | notes {j : Nat} {a : Receipt} {k : Nat} {tag : UInt16} (p : Presence)
    (agrees : Agrees t.presence p) (known : t.answers j = some a)
    (stage : a.stage = .noting k tag) :
    Change t ({ t with presence := p }.setAnswer j (a.goTo (.waking k)))
  | wakes {j : Nat} {a : Receipt} {k : Nat} (known : t.answers j = some a)
    (stage : a.stage = .waking k) :
    Change t (((t.tell k (.response a.number a.outcome)).setSession
      (t.session.wake k (.ok a.outcome))).setAnswer j (a.goTo .ended))
  -- Losses.
  | lossBegins {j : Nat} (reason : String) (new : t.losses j = none) :
    Change t (t.setLoss j (.fresh reason))
  | strikes {j : Nat} {l : Loss} (known : t.losses j = some l) (stage : l.stage = .striking)
    (lost : t.session.lost = false) :
    Change t ((t.setSession t.session.strike).setLoss j (l.goTo .looking))
  | comesLate {j : Nat} {l : Loss} (known : t.losses j = some l) (stage : l.stage = .striking)
    (lost : t.session.lost = true) : Change t (t.setLoss j (l.goTo .late))
  | sees {j : Nat} {l : Loss} (known : t.losses j = some l) (stage : l.stage = .looking)
    (closing : Bool) : Change t (t.setLoss j ⟨l.reason, closing, .draining⟩)
  | drains {j : Nat} {l : Loss} (known : t.losses j = some l) (stage : l.stage = .draining) :
    Change t (({ t with
        place := emptied t.place (.loss j)
        effects := t.effects ++ [(j, Effect.drain)] }.setSession
      { t.session with pending := [] }).setLoss j
        (l.goTo (.waking (t.session.pending.map Prod.snd))))
  | wakesCaller {j : Nat} {l : Loss} {k : Nat} {tag : UInt16} {rest : List Session.Pending}
    (known : t.losses j = some l) (stage : l.stage = .waking (.blocking k tag :: rest)) :
    Change t (((t.tell k (.loss l.reason)).setSession (t.session.wake k l.wakening)).setLoss j
      (l.goTo (.waking rest)))
  | passesCast {j : Nat} {l : Loss} {tag : UInt16} {rest : List Session.Pending}
    (known : t.losses j = some l) (stage : l.stage = .waking (.detached tag :: rest)) :
    Change t (t.setLoss j (l.goTo (.waking rest)))
  | wakesNobody {j : Nat} {l : Loss} (known : t.losses j = some l) (stage : l.stage = .waking []) :
    Change t (t.setLoss j (l.goTo .shaking))
  | tears {j : Nat} {l : Loss} {e : Effect} {stage : Loss.Stage} (p : Presence)
    (agrees : Agrees t.presence p) (known : t.losses j = some l) (tears : l.Tears e stage) :
    Change t ({ t with presence := p, effects := t.effects ++ [(j, e)] }.setLoss j (l.goTo stage))

/-! ## Every step is one of these -/

theorem setCall_self {i : Nat} {c : Call} (known : t.calls i = some c) : t.setCall i c = t := by
  have : update t.calls i (some c) = t.calls := by rw [← known, Function.update_eq_self]
  rw [setCall, this]

theorem setAnswer_self {j : Nat} {a : Receipt} (known : t.answers j = some a) :
    t.setAnswer j a = t := by
  have : update t.answers j (some a) = t.answers := by rw [← known, Function.update_eq_self]
  rw [setAnswer, this]

theorem setLoss_self {j : Nat} {l : Loss} (known : t.losses j = some l) : t.setLoss j l = t := by
  have : update t.losses j (some l) = t.losses := by rw [← known, Function.update_eq_self]
  rw [setLoss, this]

theorem setSession_self : t.setSession t.session = t := rfl

/-- Looking into a slot where nothing waits changes nothing. -/
theorem collect_of_not_ready {s : Session} {k : Nat} (h : (s.slot k).ready = false) :
    s.collect k = (none, s) := by
  have htake : (s.slot k).take = (none, s.slot k) := by
    cases hs : s.slot k <;> first | rfl | simp [hs, Slot.ready] at h
  have hslots : s.slots.modify k (·.take.2) = s.slots := by
    apply List.ext_getElem?
    intro m
    rw [List.getElem?_modify]
    by_cases hm : k = m
    · subst hm
      cases hx : s.slots[k]? with
      | none => rfl
      | some x =>
        have : s.slot k = x := by rw [Session.slot, hx]; rfl
        rw [this] at htake
        simp [htake]
    · simp [hm]
  rw [Session.collect, htake, hslots]

theorem change_call {i : Nat} {c : Call} (known : t.calls i = some c)
    (turn : c.stage = .entering → t.Free) :
    Change t (((t.noteCall i c).setSession (c.step t.session).2).setCall i
      (c.step t.session).1) := by
  cases hs : c.stage with
  | arriving =>
    cases hl : t.session.lost with
    | true => simpa only [noteCall, Call.step, hs, hl] using .turnedAway known hs hl
    | false => simpa only [noteCall, Call.step, hs, hl] using .looks known hs hl
  | entering => simpa only [noteCall, Call.step, hs] using .enters known hs (turn hs)
  | entered n =>
    cases hl : t.session.lost with
    | true => simpa only [noteCall, Call.step, hs, hl] using .givesUp known hs hl
    | false => simpa only [noteCall, Call.step, hs, hl] using .looksAgain known hs hl
  | ready n => simpa only [noteCall, Call.step, hs] using .hands known hs
  | offered m n packet =>
    simpa only [noteCall, Call.step, hs, setSession_self, setCall_self known] using .stays
  | accepted n =>
    cases ht : c.ticket with
    | some k => simpa only [noteCall, Call.step, hs, ht] using .waits known hs ht
    | none => simpa only [noteCall, Call.step, hs, ht] using .leaves known hs ht
  | waiting n =>
    cases ht : c.ticket with
    | none =>
      simpa only [noteCall, Call.step, hs, ht, setSession_self, setCall_self known] using .stays
    | some k =>
      cases hk : t.session.slot k with
      | filled w =>
        simpa only [noteCall, Call.step, hs, ht, Session.collect, hk, Slot.take]
          using .collects known hs ht hk
      | _ =>
        have hc : t.session.collect k = (none, t.session) :=
          collect_of_not_ready (by rw [hk]; rfl)
        simpa only [noteCall, Call.step, hs, ht, hc, setSession_self, setCall_self known]
          using .stays
  | lapsed n => simpa only [noteCall, Call.step, hs] using .withdraws known hs
  | expired n => simpa only [noteCall, Call.step, hs] using .expires known hs
  | ended r =>
    simpa only [noteCall, Call.step, hs, setSession_self, setCall_self known] using .stays

theorem change_verdict {i : Nat} {c : Call} (known : t.calls i = some c)
    (verdict : Except LinkFault Unit) :
    Change t (((t.noteVerdict i c verdict).setSession (c.heard verdict t.session).2).setCall i
      (c.heard verdict t.session).1) := by
  cases hs : c.stage with
  | offered m n packet =>
    cases verdict with
    | ok u => simpa only [noteVerdict, Call.heard, hs] using .goesOut known hs
    | error e => simpa only [noteVerdict, Call.heard, hs] using .refused known hs e
  | _ =>
    simpa only [noteVerdict, Call.heard, hs, setSession_self, setCall_self known] using .stays

theorem change_expire {i : Nat} {c : Call} (known : t.calls i = some c) :
    Change t (((t.noteExpiry c).setSession (c.expire t.session).2).setCall i
      (c.expire t.session).1) := by
  cases hs : c.stage with
  | waiting n =>
    cases ht : c.ticket with
    | none =>
      simpa only [noteExpiry, Call.expire, hs, ht, setSession_self, setCall_self known] using .stays
    | some k =>
      cases hk : (t.session.slot k).ready with
      | true =>
        simpa only [noteExpiry, Call.expire, hs, ht, hk, setSession_self, setCall_self known,
          if_true] using .stays
      | false => simpa only [noteExpiry, Call.expire, hs, ht, hk] using .lapses known hs ht hk
  | _ =>
    simpa only [noteExpiry, Call.expire, hs, setSession_self, setCall_self known] using .stays

theorem agrees_noteOutcome (p : Presence) (tag : UInt16) (outcome : CallOutcome) :
    Agrees p (p.noteOutcome tag outcome) := by
  unfold Presence.noteOutcome Presence.noteJoin
  repeat' split
  all_goals exact ⟨rfl, rfl, rfl, rfl, rfl⟩

theorem change_answer {j : Nat} {a : Receipt} (known : t.answers j = some a) :
    Change t ({ t.noteAnswer j a with presence := (a.step t.presence).2 }.setAnswer j
      (a.step t.presence).1) := by
  cases hs : a.stage with
  | counting =>
    simpa only [noteAnswer, Receipt.step, hs] using .counts _ ⟨rfl, rfl, rfl, rfl, rfl⟩ known hs
  | claiming => simpa only [noteAnswer, Receipt.step, hs] using .claims known hs
  | noting k tag =>
    simpa only [noteAnswer, Receipt.step, hs] using
      .notes _ (agrees_noteOutcome _ tag a.outcome) known hs
  | waking k => simpa only [noteAnswer, Receipt.step, hs] using .wakes known hs
  | ended => simpa only [noteAnswer, Receipt.step, hs, setAnswer_self known] using .stays

theorem change_loss {j : Nat} {l : Loss} (known : t.losses j = some l) :
    Change t ({ t.noteLoss j l with presence := (l.step t.presence).2 }.setLoss j
      (l.step t.presence).1) := by
  cases hs : l.stage with
  | striking =>
    cases hl : t.session.lost with
    | true =>
      have hl' : t.presence.session.lost = true := hl
      simpa only [noteLoss, noteEffect, Loss.effect?, Loss.step, hs, hl', if_true]
        using .comesLate known hs hl
    | false =>
      have hl' : t.presence.session.lost = false := hl
      simpa only [noteLoss, noteEffect, Loss.effect?, Loss.step, hs, hl']
        using .strikes known hs hl
  | late =>
    simpa only [noteLoss, noteEffect, Loss.effect?, Loss.step, hs, setLoss_self known] using .stays
  | looking =>
    simpa only [noteLoss, noteEffect, Loss.effect?, Loss.step, hs] using .sees known hs _
  | draining =>
    simpa only [noteLoss, noteEffect, Loss.effect?, Loss.step, hs] using .drains known hs
  | waking waiting =>
    cases waiting with
    | nil =>
      simpa only [noteLoss, noteEffect, Loss.effect?, Loss.step, hs] using .wakesNobody known hs
    | cons entry rest =>
      cases entry with
      | blocking k tag =>
        simpa only [noteLoss, noteEffect, Loss.effect?, Loss.step, hs] using .wakesCaller known hs
      | detached tag =>
        simpa only [noteLoss, noteEffect, Loss.effect?, Loss.step, hs] using .passesCast known hs
  | shutting =>
    cases hc : l.closing with
    | true =>
      simpa only [noteLoss, noteEffect, Loss.effect?, Loss.step, hs, hc]
        using .tears _ ⟨rfl, rfl, rfl, rfl, rfl⟩ known (.linkClosing hs hc)
    | false =>
      simpa only [noteLoss, noteEffect, Loss.effect?, Loss.step, hs, hc]
        using .tears _ ⟨rfl, rfl, rfl, rfl, rfl⟩ known (.link hs hc)
  | shaking =>
    simpa only [noteLoss, noteEffect, Loss.effect?, Loss.step, hs]
      using .tears _ ⟨rfl, rfl, rfl, rfl, rfl⟩ known (.handshake hs)
  | noting =>
    simpa only [noteLoss, noteEffect, Loss.effect?, Loss.step, hs]
      using .tears _ ⟨rfl, rfl, rfl, rfl, rfl⟩ known (.terminated hs)
  | falling =>
    simpa only [noteLoss, noteEffect, Loss.effect?, Loss.step, hs]
      using .tears _ ⟨rfl, rfl, rfl, rfl, rfl⟩ known (.standing hs)
  | telling =>
    simpa only [noteLoss, noteEffect, Loss.effect?, Loss.step, hs]
      using .tears _ ⟨rfl, rfl, rfl, rfl, rfl⟩ known (.notice hs)
  | ended =>
    simpa only [noteLoss, noteEffect, Loss.effect?, Loss.step, hs, setLoss_self known] using .stays

theorem agrees_receive (p : Presence) (packet : Packet) (now : Duration)
    (other : ∀ n outcome, packet.message ≠ .callResponse n outcome) :
    Agrees p (p.receive packet now).2 := by
  unfold Presence.receive
  cases hm : packet.message with
  | callResponse n outcome => exact absurd hm (other n outcome)
  | _ => exact ⟨rfl, rfl, rfl, rfl, rfl⟩

/-- **What one step changes.** -/
theorem Step.change (h : Step t t') : Change t t' := by
  cases h with
  | beginCall envelope new => exact .callBegins envelope new
  | beginCast envelope new => exact .castBegins envelope new
  | call known turn => exact change_call known turn
  | verdict known verdict => exact change_verdict known verdict
  | expire known limited => exact change_expire known
  | send m turn => exact .sends m turn
  | sent => exact .spoken
  | response header n outcome now new =>
    exact .answered ⟨t.session.stamp header.sequenceNumber now, t.presence.standing⟩
      ⟨rfl, rfl, rfl, rfl, rfl⟩ header new
  | answer known => exact change_answer known
  | packet packet now other => exact .received _ (agrees_receive _ packet now other) packet
  | beginLoss reason new => exact .lossBegins reason new
  | loss known => exact change_loss known
  | aside p agrees => exact .aside p agrees

end Traffic

end Federate
