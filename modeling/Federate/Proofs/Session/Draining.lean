/-
Disconnecting, when callbacks are delivered as they arrive. The federate marks
its session as ending and loses it, which closes the link and waits for the
reader; it puts the marker behind everything in the queue, waits for the
dispatcher, and resets the standing. Each of these is a step. Between them the
peer sends packets and cuts the link, the reader takes them up, the dispatcher
takes item after item and gives its thread to the handlers, and whoever else is
about goes on: callers, heartbeats, other sessions, other losses of this one.
Nobody holds callbacks back.

Beside it all, an observer notes which callbacks came over the link before it
was closed, and what had been done to the standing when it was reset. No step
looks at these notes.
-/
import Federate.Proofs.Session.Books
import Federate.Proofs.Session.Lasting
namespace Federate

/-- How far the federate has come with disconnecting. -/
inductive Leaving where
  | before
  /-- The session is marked as ending. -/
  | closed
  /-- The federate loses the session; the loss has a number. -/
  | losing (j : Nat)
  /-- The reader is at its end, unless another loss came first. -/
  | stopping (j : Nat)
  /-- The marker is in the queue. -/
  | stopped (j : Nat)
  /-- The dispatcher is at its end. -/
  | resetting (j : Nat)
  | returning (j : Nat)
  | returned (j : Nat)

/-- A session whose callbacks are delivered as they arrive, and which the federate ends. -/
structure Draining where
  /-- The client, but for the session and the standing. -/
  rest : Ambassador
  parting : Parting
  /-- How far the dispatcher has come with its delivery. -/
  dispatching : Delivery.Stage
  leaving : Leaving
  /-- The callbacks that came over the link before it was closed, first to last. -/
  arrived : List CallbackQueue.Item
  /-- What had been done to the standing when the federate reset it, first to last. -/
  past : List Event

/-- A client with the session of a number and the standing in their places. -/
def Ambassador.place (a : Ambassador) (i : Nat) (p : Presence) : Ambassador :=
  { a with sessions := a.sessions.set i p.session, standing := p.standing }

theorem Ambassador.presence_place {a : Ambassador} {i : Nat} (known : i < a.sessions.length)
    (p : Presence) : (a.place i p).presence i = p := by
  simp [place, presence, session, known]

/-- More has been done to the standing, but no callback of the session was delivered. -/
def Event.Unobserved (i : Nat) (before after : List Event) : Prop :=
  ∃ more, after = before ++ more ∧ ∀ kind, .observes i kind ∉ more

theorem Event.Unobserved.refl {i : Nat} (history : List Event) : Unobserved i history history :=
  ⟨[], (List.append_nil _).symm, fun _ => List.not_mem_nil⟩

theorem Event.Unobserved.trans {i : Nat} {xs ys zs : List Event} (h : Unobserved i xs ys)
    (h' : Unobserved i ys zs) : Unobserved i xs zs := by
  obtain ⟨more, rfl, others⟩ := h
  obtain ⟨later, rfl, others'⟩ := h'
  refine ⟨more ++ later, List.append_assoc .., fun kind observed => ?_⟩
  exact (List.mem_append.mp observed).elim (others kind) (others' kind)

/-- What those who are neither the peer nor the dispatcher nor at the end of disconnecting leave
alone. Callbacks stay enabled, nobody else takes them out or stops the queue, nothing comes to what
the reader has still to take up, and no callback of the session is delivered. -/
structure Parting.Leaves (i : Nat) (t t' : Parting) : Prop where
  enabled : t'.session.queue.enabled = t.session.queue.enabled
  handed : t'.handed = t.handed
  marks : t'.pushed.filter (·.isStop) = t.pushed.filter (·.isStop)
  unread : t'.link.unread <:+ t.link.unread
  history : Event.Unobserved i t.history t'.history

namespace Draining

/-- A session that has begun to read, of a client whose standing has some past. -/
def fresh (a : Ambassador) (limits : Session.Limits) (now : Duration) (past : List Event) :
    Draining where
  rest := a
  parting := .fresh limits now past
  dispatching := .taking
  leaving := .before
  arrived := []
  past := []

def queue (t : Draining) : CallbackQueue := t.parting.session.queue

/-- The client, when the session has a number. -/
def client (t : Draining) (i : Nat) : Ambassador := t.rest.place i t.parting.presence

def delivery (t : Draining) (i : Nat) : Delivery := ⟨i, .dispatcher, t.dispatching⟩

/-- What the next step of the dispatcher takes out. -/
def taken? (t : Draining) : Option CallbackQueue.Item :=
  match t.dispatching with
  | .taking => t.queue.next.1
  | _ => none

/-- A step of a session whose callbacks are delivered as they arrive. -/
inductive Step (i : Nat) (t : Draining) : Draining → Prop where
  /-- The peer sends a packet. -/
  | arrives {b : Bytes} {link : Loopback} (sent : t.parting.link.peerSend b = .ok link) :
    Step i t { t with
      parting := { t.parting with link }
      arrived := t.arrived ++
        if t.parting.link.closed then [] else (Packet.request? b).toList }
  /-- The peer cuts the link, the reader goes on, or anybody else about the session. -/
  | others (parting : Parting) (step : Parting.Step i t.parting parting)
    (leaves : t.parting.Leaves i parting) : Step i t { t with parting }
  /-- The rest of the client goes on. -/
  | elsewhere (rest : Ambassador) (more : t.rest.sessions.length ≤ rest.sessions.length) :
    Step i t { t with rest }
  -- The dispatcher, which waits until there is something to take.
  | deliver (waits : t.dispatching = .taking → t.queue.next.1 ≠ none) :
    Step i t { t with
      rest := ((t.delivery i).step (t.client i)).2
      parting := { t.parting with
        presence := ((t.delivery i).step (t.client i)).2.presence i
        handed := t.parting.handed ++ t.taken?.toList
        history := t.parting.history ++ (t.delivery i).event?.toList }
      dispatching := ((t.delivery i).step (t.client i)).1.stage }
  /-- The handler ends as it likes. -/
  | handled (h : Handling) : Step i t { t with dispatching := ((t.delivery i).returned h).stage }
  | heard : Step i t { t with dispatching := (t.delivery i).heard.stage }
  | again (delivered : t.dispatching = .ended true) : Step i t { t with dispatching := .taking }
  -- The federate disconnects.
  | closes (stage : t.leaving = .before) :
    Step i t { t with
      parting := { t.parting with presence := t.parting.presence.onSession (·.close) }
      leaving := .closed }
  | loses {j : Nat} (stage : t.leaving = .closed) (new : t.parting.losses j = none) :
    Step i t { t with
      parting := t.parting.setLoss j (.fresh "session terminated by the federate")
      leaving := .losing j }
  /-- Whoever loses the session waits for the reader; whoever comes late does not. -/
  | hasLost {j : Nat} {l : Loss} (stage : t.leaving = .losing j)
    (known : t.parting.losses j = some l)
    (finished : l.stage = .late ∨ l.stage = .ended ∧ t.parting.Over) :
    Step i t { t with leaving := .stopping j }
  | stops {j : Nat} (stage : t.leaving = .stopping j) :
    Step i t { t with
      parting := { t.parting with
        presence := t.parting.presence.onSession (·.onQueue (·.stop))
        pushed := t.parting.pushed ++ [.stop] }
      leaving := .stopped j }
  | joins {j : Nat} (stage : t.leaving = .stopped j) (finished : t.dispatching = .ended false) :
    Step i t { t with leaving := .resetting j }
  | resets {j : Nat} (stage : t.leaving = .resetting j) :
    Step i t { t with
      parting := { t.parting with
        presence := { t.parting.presence with
          standing := t.parting.presence.standing.after Event.resets.move }
        history := t.parting.history ++ [.resets] }
      leaving := .returning j
      past := t.parting.history }
  | returns {j : Nat} (stage : t.leaving = .returning j) :
    Step i t { t with leaving := .returned j }

/-- A session whose callbacks are delivered as they arrive, at any time. -/
def Reachable (i : Nat) (t : Draining) : Prop :=
  ∃ (a : Ambassador) (limits : Session.Limits) (now : Duration) (past : List Event),
    i < a.sessions.length ∧ Relation.ReflTransGen (Step i) (fresh a limits now past) t

end Draining

/-! ## A step of the dispatcher -/

/-- The next step neither takes anything out nor moves the standing, and the delivery has not been
told to stop. -/
def Delivery.Stage.works : Delivery.Stage → Bool
  | .taking | .observing _ _ | .ended false => false
  | _ => true

/-- What one step of a delivery makes of its session and the standing. -/
inductive Delivery.Goes (d : Delivery) (p : Presence) : Delivery.Stage → Presence → Prop where
  | findsNone (stage : d.stage = .taking) (none : p.session.queue.next.1 = none) :
    Goes d p (.ended false) (p.onSession (·.onQueue (·.next.2)))
  | takes {item : CallbackQueue.Item} (stage : d.stage = .taking)
    (next : p.session.queue.next.1 = some item) :
    Goes d p (d.receive item) (p.onSession (·.onQueue (·.next.2)))
  | observes {n : Option UInt32} {c : Callback} (stage : d.stage = .observing n c) :
    Goes d p (.entering n c) { p with standing := p.standing.observe c.kind }
  | works {s : Delivery.Stage} {q : Presence} (before : d.stage.works = true)
    (after : s ≠ .ended false) (keeps : Parting.Keeps p q)
    (enabled : q.session.queue.enabled = p.session.queue.enabled)
    (standing : q.standing = p.standing) : Goes d p s q
  | stopped (stage : d.stage = .ended false) : Goes d p (.ended false) p

theorem CallbackQueue.enabled_next (q : CallbackQueue) : q.next.2.enabled = q.enabled := by
  rcases q.next_split with (none | ⟨marker, -⟩) | ⟨i, r, first, -, -, -, -, same, -⟩
  · rw [none]
  · rw [marker]
  · rw [first]
    exact same

namespace Delivery

theorem event?_of_works {d : Delivery} (works : d.stage.works = true) : d.event? = none := by
  cases hs : d.stage with
  | observing n c => rw [hs] at works; cases works
  | _ => rw [event?, hs]

theorem examine_ne_ended (family : Option TimeFamily) (item : CallbackQueue.Item) (b : Bool) :
    examine family item ≠ .ended b := by
  cases item with
  | request n e =>
    simp only [examine]
    split <;> rintro ⟨⟩
  | lost | stop => rintro ⟨⟩

theorem goes (d : Delivery) {a : Ambassador} (known : d.session < a.sessions.length) :
    d.Goes (a.presence d.session) (d.step a).1.stage ((d.step a).2.presence d.session) := by
  have altered (f : Session → Session) :
      (a.alterSession d.session f).presence d.session = (a.presence d.session).onSession f := by
    rw [Ambassador.presence, a.session_alterSession f known]
    rfl
  have rests {s : Stage} (before : d.stage.works = true) (after : s ≠ .ended false) :
      d.Goes (a.presence d.session) s (a.presence d.session) :=
    .works before after (.refl _) rfl rfl
  cases hs : d.stage with
  | taking =>
    have after := altered fun s => s.onQueue (·.next.2)
    simp only [step, hs, Ambassador.onSession]
    cases hn : (a.session d.session).queue.next.1 with
    | none => exact after ▸ .findsNone hs hn
    | some item => exact after ▸ .takes hs hn
  | taken item =>
    simp only [step, hs]
    exact rests (by rw [hs]; rfl) (examine_ne_ended _ item false)
  | observing n c =>
    simp only [step, hs]
    exact .observes hs
  | counting n fault =>
    simp only [step, hs]
    rw [altered]
    exact .works (by rw [hs]; rfl) (by rintro ⟨⟩) ⟨rfl, rfl, rfl⟩ rfl rfl
  | finishing =>
    simp only [step, hs]
    rw [altered]
    exact .works (by rw [hs]; rfl) (by rintro ⟨⟩) ⟨rfl, rfl, rfl⟩ rfl rfl
  | answering n fault =>
    cases n with
    | none =>
      simp only [step, hs]
      exact rests (by rw [hs]; rfl) (by rintro ⟨⟩)
    | some n =>
      have after := altered fun s => (s.offer (.callbackResponse n (.ofFault? fault))).2
      simp only [step, hs]
      split
      · exact rests (by rw [hs]; rfl) (by rintro ⟨⟩)
      · exact after ▸ .works (by rw [hs]; rfl) (by rintro ⟨⟩) ⟨rfl, rfl, rfl⟩ rfl rfl
  | ended delivered =>
    cases delivered with
    | true =>
      simp only [step, hs]
      exact rests (by rw [hs]; rfl) (by rintro ⟨⟩)
    | false =>
      simp only [step, hs]
      exact .stopped hs
  | entering | handling | leaving | offered =>
    simp only [step, hs]
    exact rests (by rw [hs]; rfl) (by rintro ⟨⟩)

/-- A delivery does not hold callbacks back. -/
theorem Goes.enabled {d : Delivery} {p q : Presence} {s : Stage} (h : d.Goes p s q) :
    q.session.queue.enabled = p.session.queue.enabled := by
  cases h with
  | findsNone | takes => exact p.session.queue.enabled_next
  | observes | stopped => rfl
  | works _ _ _ same => exact same

end Delivery

namespace Draining

variable {i : Nat} {t t' : Draining}

theorem presence_client (t : Draining) (known : i < t.rest.sessions.length) :
    (t.client i).presence i = t.parting.presence :=
  Ambassador.presence_place known _

theorem taken?_of_works (works : t.dispatching.works = true) : t.taken? = none := by
  unfold taken?
  split
  · next taking => rw [taking] at works; cases works
  · rfl

/-- What the next step of the dispatcher makes of the session and the standing. -/
theorem goes_delivery (t : Draining) (known : i < t.rest.sessions.length) :
    (t.delivery i).Goes t.parting.presence ((t.delivery i).step (t.client i)).1.stage
      (((t.delivery i).step (t.client i)).2.presence i) := by
  have known' : i < (t.client i).sessions.length := by
    rwa [client, Ambassador.place, List.length_set]
  have := (t.delivery i).goes known'
  rwa [show (t.client i).presence (t.delivery i).session = _ from t.presence_client known] at this

/-- A step of the dispatcher is one of a session on its way to its end. -/
theorem parting_deliver (known : i < t.rest.sessions.length) (enabled : t.queue.enabled = true)
    (waits : t.dispatching = .taking → t.queue.next.1 ≠ none) :
    Parting.Step i t.parting { t.parting with
      presence := ((t.delivery i).step (t.client i)).2.presence i
      handed := t.parting.handed ++ t.taken?.toList
      history := t.parting.history ++ (t.delivery i).event?.toList } := by
  have goes := t.goes_delivery known
  generalize ((t.delivery i).step (t.client i)).1.stage = s,
    ((t.delivery i).step (t.client i)).2.presence i = q at goes ⊢
  cases goes with
  | findsNone stage none => exact absurd none (waits stage)
  | @takes item stage next =>
    have stage : t.dispatching = .taking := stage
    have next' : t.queue.next = (some item, t.queue.next.2) := Prod.ext next rfl
    rcases CallbackQueue.of_next_some next' with ⟨-, -, -, disabled⟩ | ⟨-, -, first, -⟩
    · rw [enabled] at disabled
      cases disabled
    · simp only [taken?, stage, Delivery.event?, delivery, Option.toList_none, List.append_nil]
      rw [show t.queue.next.1 = some item from next]
      exact .take next' first
  | @observes n c stage =>
    have stage : t.dispatching = .observing n c := stage
    simp only [taken?, stage, Delivery.event?, delivery, Option.toList_none, List.append_nil]
    exact .moves (.observes i c.kind)
  | works before after keeps enabled standing =>
    rw [taken?_of_works before, Delivery.event?_of_works before, Option.toList_none,
      Option.toList_none, List.append_nil, List.append_nil]
    exact .aside q keeps standing
  | stopped stage =>
    have stage : t.dispatching = .ended false := stage
    simp only [taken?, stage, Delivery.event?, delivery, Option.toList_none, List.append_nil]
    exact .refl

/-- The steps are those of a session on its way to its end. -/
theorem Step.parting (hs : Step i t t') (known : i < t.rest.sessions.length)
    (enabled : t.queue.enabled = true) : Parting.Step i t.parting t'.parting := by
  cases hs with
  | arrives sent => exact .arrives sent
  | others parting step leaves => exact step
  | deliver waits => exact parting_deliver known enabled waits
  | closes stage => exact .close
  | loses stage new => exact .beginLoss _ new
  | stops stage => exact .stop
  | resets stage => exact .moves .resets
  | elsewhere | handled | heard | again | hasLost | joins | returns => exact .refl

/-- Nobody holds callbacks back, and the client forgets no session. -/
theorem Step.goesOn (hs : Step i t t') (known : i < t.rest.sessions.length)
    (enabled : t.queue.enabled = true) :
    i < t'.rest.sessions.length ∧ t'.queue.enabled = true := by
  cases hs with
  | others parting step leaves => exact ⟨known, leaves.enabled.trans enabled⟩
  | elsewhere rest more => exact ⟨known.trans_le more, enabled⟩
  | deliver waits =>
    have goes := t.goes_delivery known
    have length := (t.delivery i).length_step (t.client i)
    refine ⟨?_, goes.enabled.trans enabled⟩
    show i < ((t.delivery i).step (t.client i)).2.sessions.length
    rwa [length, client, Ambassador.place, List.length_set]
  | _ => exact ⟨known, enabled⟩

end Draining

end Federate
