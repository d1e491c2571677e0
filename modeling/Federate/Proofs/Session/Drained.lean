/-
Disconnecting drains the queue. When the federate has lost its session, the
reader is at its end and the queue has been given all that came before the link
was closed; nobody else pushes anything any more, for the loss has seen that the
federate itself was ending the session. The marker comes behind all of it. The
dispatcher ends when it has taken the marker, so it has taken everything; and
only then is the standing reset.
-/
import Federate.Proofs.Session.Draining
namespace Federate

namespace Leaving

/-- The loss by which the federate ends the session, once it has begun. -/
def loss? : Leaving → Option Nat
  | .before | .closed => none
  | .losing j | .stopping j | .stopped j | .resetting j | .returning j | .returned j => some j

/-- Has the loss come to its end? -/
def torn : Leaving → Bool
  | .before | .closed | .losing _ => false
  | .stopping _ | .stopped _ | .resetting _ | .returning _ | .returned _ => true

/-- The markers that the queue has been given. -/
def marks : Leaving → List CallbackQueue.Item
  | .before | .closed | .losing _ | .stopping _ => []
  | .stopped _ | .resetting _ | .returning _ | .returned _ => [.stop]

/-- Has the dispatcher come to its end? -/
def joined : Leaving → Bool
  | .resetting _ | .returning _ | .returned _ => true
  | _ => false

/-- Has the standing been reset? -/
def reset : Leaving → Bool
  | .returning _ | .returned _ => true
  | _ => false

end Leaving

namespace Draining

variable {i j : Nat} {t t' : Draining} {l : Loss}

/-- What has come has been pushed, or waits for the reader; and the queue has the markers that it
has been given. -/
structure Kept (i : Nat) (t : Draining) : Prop where
  parting : Parting.Reachable i t.parting
  known : i < t.rest.sessions.length
  enabled : t.queue.enabled = true
  clear : t.parting.link.Clear
  arrived : t.parting.pushed.filter (·.isRequest) ++ t.parting.waiting = t.arrived
  marks : t.parting.pushed.filter (·.isStop) = t.leaving.marks

theorem Kept.step (h : Kept i t) (hs : Step i t t') : Kept i t' := by
  have step := hs.parting h.known h.enabled
  obtain ⟨known, enabled⟩ := hs.goesOn h.known h.enabled
  have bounded := h.parting.manned.bounded
  obtain ⟨limits, now, past, run⟩ := h.parting
  refine ⟨⟨limits, now, past, run.tail step⟩, known, enabled, step.clear h.clear, ?_, ?_⟩
  · cases hs with
    | @arrives b link sent =>
      show t.parting.pushed.filter _ ++ link.unread.filterMap Packet.request? = t.arrived ++ _
      rw [t.parting.waiting_peerSend sent h.clear bounded, ← List.append_assoc, h.arrived]
    | others parting hp leaves => exact (hp.requests bounded leaves.unread).trans h.arrived
    | stops stage => exact (step.requests bounded (List.suffix_refl _)).trans h.arrived
    | _ => exact h.arrived
  · cases hs with
    | others parting hp leaves => exact leaves.marks.trans h.marks
    | @stops j stage =>
      show (t.parting.pushed ++ [CallbackQueue.Item.stop]).filter _ = _
      rw [List.filter_append, h.marks, stage]
      rfl
    | closes stage | loses stage | hasLost stage | joins stage | resets stage | returns stage =>
      have := h.marks
      rw [stage] at this
      exact this
    | _ => exact h.marks

theorem Kept.requests (h : Kept i t) : t.arrived.filter (·.isRequest) = t.arrived := by
  rw [← h.arrived, List.filter_append, t.parting.requests_waiting]
  simp only [List.filter_filter, Bool.and_self]

/-! ## The loss by which the federate ends its session -/

/-- The loss sees that the federate is ending the session, and it is over when the federate goes on
behind it. -/
structure Ending (t : Draining) : Prop where
  closing : t.leaving ≠ .before → t.parting.session.closing = true
  own : ∀ j, t.leaving.loss? = some j →
    ∃ l, t.parting.losses j = some l ∧ l.Sees ∧ (t.leaving.torn = true → l.Over)

theorem Ending.step (h : Ending t) (step : Parting.Step i t.parting t'.parting)
    (hs : Step i t t') : Ending t' := by
  -- Whatever goes on, the loss that the federate has begun goes on, too.
  have goes (same : t'.leaving = t.leaving) : Ending t' := by
    refine ⟨fun begun => step.closing (h.closing (same ▸ begun)), fun j hj => ?_⟩
    rw [same] at hj ⊢
    obtain ⟨l, known, sees, finished⟩ := h.own j hj
    have closing : t.parting.session.closing = true :=
      h.closing fun before => by rw [before] at hj; cases hj
    rcases step.row known with stays | goes
    · exact ⟨l, stays, sees, finished⟩
    · refine ⟨_, goes, sees.step closing, fun torn => ?_⟩
      rw [Loss.step_over (finished torn)]
      exact finished torn
  cases hs with
  | closes stage => exact ⟨fun _ => rfl, nofun⟩
  | @loses j stage new =>
    refine ⟨fun _ => h.closing (by rw [stage]; nofun), fun k hk => ?_⟩
    cases hk
    exact ⟨_, Function.update_self .., nofun, nofun⟩
  | @hasLost j l stage known finished =>
    have own := h.own j (by rw [stage]; rfl)
    refine ⟨fun _ => h.closing (by rw [stage]; nofun), fun k hk => ?_⟩
    cases hk
    obtain ⟨m, hm, sees, -⟩ := own
    rw [known] at hm
    cases hm
    exact ⟨l, known, sees, fun _ => finished.imp_right And.left⟩
  | stops stage | joins stage | resets stage | returns stage =>
    have own := h.own
    rw [stage] at own
    exact ⟨fun _ => h.closing (by rw [stage]; nofun), own⟩
  | arrives | others | elsewhere | deliver | handled | heard | again => exact goes rfl

/-! ## What the queue has been given -/

/-- Once the federate has lost its session, the queue has been given what has come, and the
marker. -/
def Settled (t : Draining) : Prop :=
  ∀ j l, t.leaving.loss? = some j → t.leaving.torn = true → t.parting.losses j = some l →
    l.stage = .ended → t.parting.pushed = t.arrived ++ t.leaving.marks

/-- When the queue has been given everything, nothing more is pushed. -/
theorem Kept.settled (h : Kept i t) (h' : Kept i t')
    (pushes : ∃ more, t'.parting.pushed = t.parting.pushed ++ more)
    (arrived : t'.arrived = t.arrived) (same : t'.leaving = t.leaving)
    (untold : Parting.notices t'.parting.pushed = [])
    (settled : t.parting.pushed = t.arrived ++ t.leaving.marks) :
    t'.parting.pushed = t'.arrived ++ t'.leaving.marks := by
  obtain ⟨more, pushed⟩ := pushes
  have requested : t.parting.pushed.filter (·.isRequest) = t.arrived := by
    rw [settled, List.filter_append, h.requests]
    cases t.leaving <;> exact List.append_nil _
  have unmarked : more.filter (·.isStop) = [] := by
    have marks := h'.marks
    rw [pushed, List.filter_append, same, h.marks] at marks
    exact List.append_right_eq_self.mp marks
  have unrequested : more.filter (·.isRequest) = [] := by
    have requests := h'.arrived
    rw [pushed, List.filter_append, arrived, requested, List.append_assoc] at requests
    exact (List.append_eq_nil_iff.mp (List.append_right_eq_self.mp requests)).1
  have none : more = [] := by
    rw [pushed, Parting.notices, List.filter_append] at untold
    rw [← Parting.requests_of unmarked (List.append_eq_nil_iff.mp untold).2, unrequested]
  rw [pushed, none, List.append_nil, settled, arrived, same]

theorem Settled.step (h : Settled t) (kept : Kept i t) (ending : Ending t) (hs : Step i t t') :
    Settled t' := by
  have kept' := kept.step hs
  have step := hs.parting kept.known kept.enabled
  have ending' := ending.step step hs
  have untold {j : Nat} {l : Loss} (hj : t'.leaving.loss? = some j)
      (known : t'.parting.losses j = some l) (ended : l.stage = .ended) :
      Parting.notices t'.parting.pushed = [] := by
    obtain ⟨m, hm, sees, -⟩ := ending'.own j hj
    rw [known] at hm
    cases hm
    exact kept'.parting.untold known ended sees
  -- A loss that has ended had ended before, and the link has been closed.
  have goes (same : t'.leaving = t.leaving)
      (arrived : t.parting.link.closed = true → t'.arrived = t.arrived) : Settled t' := by
    intro j l hj torn known ended
    rw [same] at torn
    obtain ⟨m, hm, -, finished⟩ := ending.own j (same ▸ hj)
    have stays : t'.parting.losses j = some m := by
      rcases step.row hm with stays | goes
      · exact stays
      · rwa [Loss.step_over (finished torn)] at goes
    rw [known] at stays
    cases stays
    have closed := kept.parting.manned.shut j l hm (by rw [ended]; rfl)
    exact kept.settled kept' step.pushed (arrived closed) same (untold hj known ended)
      (h j l (same ▸ hj) torn hm ended)
  cases hs with
  | @arrives b link sent =>
    refine goes rfl fun closed => ?_
    show t.arrived ++ _ = _
    rw [if_pos closed, List.append_nil]
  | closes stage => exact nofun
  | loses stage new => exact fun _ _ _ => nofun
  | @hasLost j l stage known finished =>
    intro k m hk _ hm ended
    cases hk
    have hm' := hm
    rw [known] at hm'
    cases hm'
    obtain ⟨-, finished⟩ := finished.resolve_left (by rw [ended]; nofun)
    have nothing : t.parting.waiting = [] := by
      rw [Parting.waiting, Loopback.unread, finished.2]
      rfl
    have requests := kept.arrived
    rw [nothing, List.append_nil,
      Parting.requests_of (kept.marks.trans (by rw [stage]; rfl)) (untold rfl hm ended)] at requests
    exact requests.trans (List.append_nil _).symm
  | @stops j stage =>
    intro k m hk _ hm ended
    have settled := h k m (by rw [stage]; exact hk) (by rw [stage]; rfl) hm ended
    rw [stage] at settled
    show t.parting.pushed ++ [CallbackQueue.Item.stop] = t.arrived ++ [.stop]
    rw [settled]
    exact congrArg (· ++ _) (List.append_nil _)
  | joins stage | resets stage | returns stage =>
    intro k m hk _ hm ended
    have settled := h k m (by rw [stage]; exact hk) (by rw [stage]; rfl) hm ended
    rw [stage] at settled
    exact settled
  | others | elsewhere | deliver | handled | heard | again => exact goes rfl fun _ => rfl

/-! ## The dispatcher -/

/-- A dispatcher that was told to stop takes nothing more, and delivers nothing. -/
theorem Step.stopped (hs : Step i t t') (stopped : t.dispatching = .ended false) :
    t'.dispatching = .ended false ∧ t'.parting.handed = t.parting.handed ∧
      Event.Unobserved i t.parting.history t'.parting.history := by
  have stage : (t.delivery i).stage = .ended false := stopped
  cases hs with
  | others parting step leaves => exact ⟨stopped, leaves.handed, leaves.history⟩
  | deliver waits =>
    have step := (Delivery.over_of_found_none stage (t.client i) .returned).1
    have taken : t.taken? = none := by rw [taken?, stopped]
    have event : (t.delivery i).event? = none := by rw [Delivery.event?, stage]
    refine ⟨by rw [step]; exact stopped, ?_, ?_⟩
    · rw [taken]
      exact List.append_nil _
    · rw [event, Option.toList_none, List.append_nil]
      exact .refl _
  | handled h =>
    have returned := (Delivery.over_of_found_none stage (t.client i) h).2.1
    exact ⟨by rw [returned]; exact stopped, rfl, .refl _⟩
  | heard =>
    have heard := (Delivery.over_of_found_none stage (t.client i) .returned).2.2
    exact ⟨by rw [heard]; exact stopped, rfl, .refl _⟩
  | again delivered =>
    rw [stopped] at delivered
    cases delivered
  | resets stage => exact ⟨stopped, rfl, _, rfl, by simp⟩
  | _ => exact ⟨stopped, rfl, .refl _⟩

/-- A dispatcher is told to stop by the marker that it takes. -/
theorem marker_of_deliver (known : i < t.rest.sessions.length)
    (waits : t.dispatching = .taking → t.queue.next.1 ≠ none)
    (going : t.dispatching ≠ .ended false)
    (stopped : ((t.delivery i).step (t.client i)).1.stage = .ended false) :
    t.taken? = some .stop := by
  have goes := t.goes_delivery known
  generalize ((t.delivery i).step (t.client i)).1.stage = s,
    ((t.delivery i).step (t.client i)).2.presence i = q at goes stopped
  cases goes with
  | findsNone stage none => exact absurd none (waits stage)
  | @takes item stage next =>
    have taken : t.taken? = some item := by
      rw [taken?, show t.dispatching = _ from stage]
      exact next
    cases item with
    | stop => exact taken
    | request | lost => cases stopped
  | observes stage => cases stopped
  | works before after => exact absurd stopped after
  | stopped stage => exact absurd stage going

/-- The dispatcher ends when it has taken the marker, and the federate waits for its end. -/
structure Dispatched (t : Draining) : Prop where
  marked : t.dispatching = .ended false → .stop ∈ t.parting.handed
  joined : t.leaving.joined = true → t.dispatching = .ended false

theorem Dispatched.step (h : Dispatched t) (known : i < t.rest.sessions.length) (hs : Step i t t') :
    Dispatched t' := by
  have stays (joined : t.leaving.joined = true) : t'.dispatching = .ended false :=
    (hs.stopped (h.joined joined)).1
  refine ⟨fun stopped' => ?_, fun joined' => ?_⟩
  · by_cases stopped : t.dispatching = .ended false
    · rw [(hs.stopped stopped).2.1]
      exact h.marked stopped
    · cases hs with
      | deliver waits =>
        show .stop ∈ t.parting.handed ++ t.taken?.toList
        rw [marker_of_deliver known waits stopped stopped']
        exact List.mem_append_right _ List.mem_cons_self
      | handled h =>
        simp only [Delivery.returned] at stopped'
        split at stopped'
        · cases stopped'
        · exact absurd stopped' stopped
      | heard =>
        simp only [Delivery.heard] at stopped'
        split at stopped'
        · cases stopped'
        · exact absurd stopped' stopped
      | again => cases stopped'
      | _ => exact absurd stopped' stopped
  · cases hs with
    | joins stage finished => exact finished
    | closes | loses | hasLost | stops => cases joined'
    | resets stage | returns stage => exact stays (by rw [stage]; rfl)
    | _ => exact stays joined'

/-- Since the standing was reset, no callback of the session has moved it. -/
def Rested (i : Nat) (t : Draining) : Prop :=
  t.leaving.reset = true → Event.Unobserved i (t.past ++ [.resets]) t.parting.history

theorem Rested.step (h : Rested i t) (dispatched : Dispatched t) (hs : Step i t t') :
    Rested i t' := by
  -- The standing is reset when the dispatcher has come to its end.
  have goes (same : t'.past = t.past) (reset : t.leaving.reset = true) :
      Event.Unobserved i (t'.past ++ [.resets]) t'.parting.history := by
    have joined : t.leaving.joined = true := by
      cases hl : t.leaving <;> rw [hl] at reset <;> first | rfl | cases reset
    rw [same]
    exact (h reset).trans (hs.stopped (dispatched.joined joined)).2.2
  intro reset
  cases hs with
  | closes | loses | hasLost | stops | joins => cases reset
  | resets stage => exact .refl _
  | returns stage => exact goes rfl (by rw [stage]; rfl)
  | _ => exact goes rfl reset

/-! ## Disconnecting -/

/-- What always holds of a session that the federate ends. -/
structure Sound (i : Nat) (t : Draining) : Prop where
  kept : Kept i t
  ending : Ending t
  settled : Settled t
  dispatched : Dispatched t
  rested : Rested i t

theorem Sound.start {a : Ambassador} (known : i < a.sessions.length) (limits : Session.Limits)
    (now : Duration) (past : List Event) : Sound i (fresh a limits now past) where
  kept := {
    parting := ⟨limits, now, past, .refl⟩
    known := known
    enabled := rfl
    clear := fun _ _ => ⟨rfl, nofun⟩
    arrived := rfl
    marks := rfl }
  ending := ⟨fun begun => absurd rfl begun, nofun⟩
  settled := nofun
  dispatched := ⟨nofun, nofun⟩
  rested := nofun

theorem Sound.step (h : Sound i t) (hs : Step i t t') : Sound i t' where
  kept := h.kept.step hs
  ending := h.ending.step (hs.parting h.kept.known h.kept.enabled) hs
  settled := h.settled.step h.kept h.ending hs
  dispatched := h.dispatched.step h.kept.known hs
  rested := h.rested.step h.dispatched hs

theorem Reachable.sound (h : Reachable i t) : Sound i t := by
  obtain ⟨a, limits, now, past, known, hs⟩ := h
  induction hs with
  | refl => exact .start known limits now past
  | tail _ hs ih => exact ih.step hs

/-- Nothing waits behind the last item, once that has been taken. -/
theorem all_of_last_mem {α : Type} {xs ys zs : List α} {x : α} (taken : xs ++ [x] = ys ++ zs)
    (last : x ∈ ys) (new : x ∉ xs) : ys = xs ++ [x] ∧ zs = [] := by
  rcases zs.eq_nil_or_concat with rfl | ⟨init, y, rfl⟩
  · exact ⟨by rw [taken, List.append_nil], rfl⟩
  · rw [List.concat_eq_append, ← List.append_assoc] at taken
    have before : xs = ys ++ init := (List.append_inj' taken rfl).1
    exact absurd (before ▸ List.mem_append_left _ last) new

/-- A dispatcher that was told to stop stays so. -/
theorem stopped_of_run (hs : Relation.ReflTransGen (Step i) t t')
    (stopped : t.dispatching = .ended false) :
    t'.dispatching = .ended false ∧ t'.parting.handed = t.parting.handed := by
  induction hs with
  | refl => exact ⟨stopped, rfl⟩
  | tail _ hs ih =>
    obtain ⟨dispatching, handed, -⟩ := hs.stopped ih.1
    exact ⟨dispatching, handed.trans ih.2⟩

/-- How disconnecting leaves a session behind. -/
structure Drained (i : Nat) (t : Draining) : Prop where
  /-- The dispatcher has been handed each callback that came before the link was closed, once and in
  the order of arrival, and then the marker. -/
  handed : t.parting.handed = t.arrived ++ [.stop]
  requests : ∀ x ∈ t.arrived, x.isRequest = true
  empty : t.queue.items = []
  /-- It has come to its end, and from then on it is handed nothing and calls no handler. -/
  silent : ∀ t', Relation.ReflTransGen (Step i) t t' →
    t'.dispatching = .ended false ∧ t'.parting.handed = t.parting.handed
  /-- The standing is what others have made of that of a federate without a connection since it was
  reset; no callback of the session has had a part in that. -/
  standing : ∃ since, t.parting.history = t.past ++ .resets :: since ∧
    (∀ kind, .observes i kind ∉ since) ∧
    t.parting.presence.standing = Standing.idle.run (since.map Event.move)
  /-- If they have made nothing of it, it still is that of a federate without a connection. -/
  idle : ∀ since, t.parting.history = t.past ++ .resets :: since →
    (∀ x ∈ since, x.move.stirs = false) → t.parting.presence.standing = .idle

/-- **Disconnecting drains the queue.** If the federate itself has lost the session that it ends,
then once it has disconnected, the dispatcher has been handed all that came before the link was
closed, whatever became of the handlers, and nothing comes after. -/
theorem Reachable.drained {j : Nat} {l : Loss} (h : Reachable i t)
    (returned : t.leaving = .returned j) (known : t.parting.losses j = some l)
    (won : l.stage = .ended) : Drained i t := by
  obtain ⟨kept, ending, settled, dispatched, rested⟩ := h.sound
  have stopped : t.dispatching = .ended false := dispatched.joined (by rw [returned]; rfl)
  have pushed : t.parting.pushed = t.arrived ++ [.stop] := by
    rw [settled j l (by rw [returned]; rfl) (by rw [returned]; rfl) known won, returned]
    rfl
  have requests : ∀ x ∈ t.arrived, x.isRequest = true := List.filter_eq_self.mp kept.requests
  obtain ⟨order, standing⟩ := kept.parting.recorded
  have taken : t.arrived ++ [.stop] = t.parting.handed ++ t.queue.items := pushed.symm.trans order
  have handed := all_of_last_mem taken (dispatched.marked stopped) fun arrived =>
    nomatch requests _ arrived
  have run (since : List Event) (history : t.parting.history = t.past ++ .resets :: since) :
      t.parting.presence.standing = Standing.idle.run (since.map Event.move) := by
    rw [standing, history, Event.stand_append]
    rfl
  exact {
    handed := handed.1
    requests := requests
    empty := handed.2
    silent := fun t' hs => stopped_of_run hs stopped
    standing := by
      obtain ⟨since, history, unobserved⟩ := rested (by rw [returned]; rfl)
      rw [List.append_assoc, List.singleton_append] at history
      exact ⟨since, history, unobserved, run since history⟩
    idle := fun since history quiet => by
      rw [run since history]
      refine (Standing.run_idle_iff _).mpr ?_ _ (List.prefix_refl _)
      rwa [List.forall_mem_map] }

/-- A client whose one session has just begun to read, when the federate has connected. -/
def begun : Draining :=
  fresh { Ambassador.fresh .standard with sessions := [.gone] } ⟨none, none, .zero, none, ""⟩ .zero
    [.connects 0]

theorem leaves_quiet {p p' : Parting} (queue : p'.session.queue = p.session.queue)
    (handed : p'.handed = p.handed) (pushed : p'.pushed = p.pushed)
    (unread : p'.link.unread = p.link.unread) (history : p'.history = p.history) :
    p.Leaves i p' :=
  ⟨by rw [queue], handed, by rw [pushed], unread ▸ List.suffix_refl _, history ▸ .refl _⟩

/-- The federate is asked to save as it disconnects, and the handler breaks off. -/
theorem drained_of_save : ∃ t, Reachable 0 t ∧ t.leaving = .returned 0 ∧
    t.parting.handed = [.request 2 Parting.saveEnvelope, .stop] ∧
    t.past = [.connects 0, .observes 0 .initiateFederateSave] ∧ Drained 0 t := by
  have arrived := Relation.ReflTransGen.single
    (Step.arrives (i := 0) (t := begun) (b := Parting.saveBytes) rfl)
  have closed := arrived.tail (.closes rfl)
  have losing := closed.tail (.loses (j := 0) rfl rfl)
  have struck := losing.tail
    (.others _ (.loss (j := 0) rfl nofun) (leaves_quiet rfl rfl rfl rfl rfl))
  have looked := struck.tail
    (.others _ (.loss (j := 0) rfl nofun) (leaves_quiet rfl rfl rfl rfl rfl))
  have drained := looked.tail
    (.others _ (.loss (j := 0) rfl nofun) (leaves_quiet rfl rfl rfl rfl rfl))
  have woken := drained.tail
    (.others _ (.loss (j := 0) rfl nofun) (leaves_quiet rfl rfl rfl rfl rfl))
  have shaken := woken.tail
    (.others _ (.loss (j := 0) rfl nofun) (leaves_quiet rfl rfl rfl rfl rfl))
  have noted := shaken.tail
    (.others _ (.loss (j := 0) rfl nofun) (leaves_quiet rfl rfl rfl rfl rfl))
  have shut := noted.tail
    (.others _ (.loss (j := 0) rfl nofun) (leaves_quiet rfl rfl rfl rfl rfl))
  have read := shut.tail (.others _
    (.reads (b := Parting.saveBytes) .zero rfl rfl Parting.decode_saveBytes nofun rfl)
    ⟨rfl, rfl, rfl, ⟨[Parting.saveBytes], rfl⟩, .refl _⟩)
  have finished := read.tail (.others _ (.ends rfl rfl) (leaves_quiet rfl rfl rfl rfl rfl))
  have lost := finished.tail (.hasLost (j := 0) rfl rfl (.inr ⟨rfl, rfl, rfl⟩))
  have stopped := lost.tail (.stops (j := 0) rfl)
  have taken := stopped.tail (.deliver nofun)
  have examined := taken.tail (.deliver nofun)
  have observed := examined.tail (.deliver nofun)
  have called := observed.tail (.deliver nofun)
  have failed := called.tail (.handled (.panicked none))
  have left := failed.tail (.deliver nofun)
  have counted := left.tail (.deliver nofun)
  have silent := counted.tail (.deliver nofun)
  have done := silent.tail (.deliver nofun)
  have again := done.tail (.again rfl)
  have marked := again.tail (.deliver nofun)
  have joined := marked.tail (.joins (j := 0) rfl rfl)
  have reset := joined.tail (.resets (j := 0) rfl)
  have returned := reset.tail (.returns (j := 0) rfl)
  have reachable : Reachable 0 _ := ⟨_, _, _, _, by decide, returned⟩
  exact ⟨_, reachable, rfl, rfl, rfl, reachable.drained rfl rfl rfl⟩

end Draining

end Federate
