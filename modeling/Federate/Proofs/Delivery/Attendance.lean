/-
The mark of the callback thread, for all sessions of a client at once. Any
number of deliveries and summonses run on any threads, each with its next step
at any time, connections are retired, and so does everything else. Whoever
enters a handler sets the mark, and whoever leaves one takes it away, be it his
own or not; so a thread that is marked has a handler (`Reachable.attended`), and
when a handler has ended the mark is gone (`Delivery.unmarked`).

A thread that is marked is refused what it summons, once it has seen the
connection. Whoever retires a connection holds its place until the dispatcher
has ended; if that is the thread that summons, neither of them ever goes on
(`summons_without_end`).
-/
import Mathlib.Logic.Relation
import Federate.Ambassador.Errand
import Federate.Ambassador.Summons
import Federate.Proofs.Delivery.Evoking
namespace Federate

open Function (update)

/-- Deliveries set the mark before the handler, and take it away after it. -/
theorem Delivery.handling_step (d : Delivery) (a : Ambassador) : (d.step a).2.handling =
    match d.stage with
    | .entering _ _ => some d.thread
    | .leaving _ _ => none
    | _ => a.handling := by
  cases hs : d.stage with
  | taking =>
    simp only [step, hs, Ambassador.onSession]
    cases (a.session d.session).queue.next.1 <;> rfl
  | answering n fault =>
    cases n with
    | none => simp only [step, hs]
    | some n =>
      simp only [step, hs]
      split <;> rfl
  | _ => simp only [step, hs, Ambassador.alterSession]

/-- However a handler has ended, the mark is gone with the next step of its delivery. -/
theorem Delivery.unmarked {d : Delivery} {n : Option UInt32} {c : Callback}
    (handling : d.stage = .handling n c) (h : Handling) (a : Ambassador) :
    ((d.returned h).step a).2.handling = none := by
  rw [handling_step]
  simp only [returned, handling, goTo]

/-- No errand touches the mark, or the place of the connection. -/
theorem Errand.handling_and_held_step (e : Errand) (a : Ambassador) :
    (e.step a).2.handling = a.handling ∧ (e.step a).2.held = a.held := by
  cases hs : e.stage with
  | checking =>
    simp only [step, hs]
    split
    · split <;> exact ⟨rfl, rfl⟩
    · exact ⟨rfl, rfl⟩
  | accepting awaited =>
    simp only [step, hs, Ambassador.accept]
    cases a.standing.accept e.operation (a.inCallback e.thread) <;> exact ⟨rfl, rfl⟩
  | seeking awaited =>
    simp only [step, hs]
    split
    · exact ⟨rfl, rfl⟩
    · exact ⟨rfl, rfl⟩
    · split <;> exact ⟨rfl, rfl⟩
  | calling awaited i call =>
    simp only [step, hs]
    split <;> exact ⟨rfl, rfl⟩
  | settling result =>
    simp only [step, hs]
    split <;> exact ⟨rfl, rfl⟩
  | _ => simp only [step, hs, and_self]

/-- No delivery touches the place of the connection. -/
theorem Delivery.held_step (d : Delivery) (a : Ambassador) : (d.step a).2.held = a.held := by
  cases hs : d.stage with
  | taking =>
    simp only [step, hs, Ambassador.onSession]
    cases (a.session d.session).queue.next.1 <;> rfl
  | answering n fault =>
    cases n with
    | none => simp only [step, hs]
    | some n =>
      simp only [step, hs]
      split <;> rfl
  | _ => simp only [step, hs, Ambassador.alterSession]

/-- The summons has been answered. -/
def Summons.Stage.answered : Summons.Stage → Bool
  | .seeking | .checking _ => false
  | .refused _ | .idle | .granted _ => true

/-- What a marked thread summons is refused, once it has seen the connection. -/
theorem Summons.refused_of_marked {s : Summons} {found : Option Connection} {a : Ambassador}
    (checking : s.stage = .checking found) (marked : a.inCallback s.thread = true) :
    ∃ details, (s.step a).stage =
      .refused (.known .callNotAllowedFromWithinCallback details) := by
  simp only [step, checking, marked, if_true]
  exact ⟨_, rfl⟩

/-- The deliveries of a client, and the summonses for more. -/
structure Attendance where
  ambassador : Ambassador
  deliveries : Nat → Option Delivery
  summonses : Nat → Option Summons
  /-- The connection that is being retired, whose place is held. -/
  retiring : Option Connection

namespace Attendance

/-- Those of a new client. -/
def fresh (settings : Settings) : Attendance where
  ambassador := .fresh settings
  deliveries _ := none
  summonses _ := none
  retiring := none

def setDelivery (t : Attendance) (k : Nat) (d : Delivery) : Attendance :=
  { t with deliveries := update t.deliveries k (some d) }

def setSummons (t : Attendance) (j : Nat) (s : Summons) : Attendance :=
  { t with summonses := update t.summonses j (some s) }

/-- The thread has no answer to wait for. -/
def Answered (t : Attendance) (thread : Thread) : Prop :=
  ∀ j s, t.summonses j = some s → s.thread = thread → s.stage.answered = true

/-- The dispatcher of the connection, if it has one, has nothing more under way. -/
def Joined (t : Attendance) (c : Connection) : Prop :=
  c.model = .immediate → ∀ k d, t.deliveries k = some d → d.session = c.session →
    d.thread = .dispatcher → ∃ delivered, d.stage = .ended delivered

/-- A step of the deliveries, or around them. -/
inductive Step (t : Attendance) : Attendance → Prop where
  | begin {k : Nat} (session : Nat) (thread : Thread) (new : t.deliveries k = none) :
    Step t (t.setDelivery k (.fresh session thread))
  | deliver {k : Nat} {d : Delivery} (known : t.deliveries k = some d) :
    Step t ({ t with ambassador := (d.step t.ambassador).2 }.setDelivery k
      (d.step t.ambassador).1)
  /-- A handler ends, though not before it has the answer to what it summoned. -/
  | returns {k : Nat} {d : Delivery} (known : t.deliveries k = some d) (h : Handling)
    (answered : t.Answered d.thread) : Step t (t.setDelivery k (d.returned h))
  | verdict {k : Nat} {d : Delivery} (known : t.deliveries k = some d) :
    Step t (t.setDelivery k d.heard)
  | summon {j : Nat} (name : String) (thread : Thread) (new : t.summonses j = none) :
    Step t (t.setSummons j (.fresh name thread))
  | look {j : Nat} {s : Summons} (known : t.summonses j = some s) :
    Step t (t.setSummons j (s.step t.ambassador))
  /-- Whoever connects retires a connection that is left over, -/
  | seize (free : t.ambassador.held = false) :
    Step t { t with
      ambassador := t.ambassador.seizeConnection.2
      retiring := t.ambassador.connection }
  /-- and goes on when its dispatcher has ended. -/
  | yields {c : Connection} (retires : t.retiring = some c) (joined : t.Joined c) :
    Step t { t with ambassador := t.ambassador.yieldConnection, retiring := none }
  | errand (e : Errand) : Step t { t with ambassador := (e.step t.ambassador).2 }
  /-- Anything else. -/
  | aside (a : Ambassador) (same : a.handling = t.ambassador.handling)
    (place : a.held = t.ambassador.held) : Step t { t with ambassador := a }

/-- The deliveries of a client, at any time. -/
def Reachable (t : Attendance) : Prop :=
  ∃ settings, Relation.ReflTransGen Step (fresh settings) t

/-- A handler has the thread. -/
def Attended (t : Attendance) (thread : Thread) : Prop :=
  ∃ k d, t.deliveries k = some d ∧ d.thread = thread ∧ d.stage.attended = true

/-- Only a thread with a handler is marked. -/
def Marked (t : Attendance) : Prop :=
  ∀ thread, t.ambassador.handling = some thread → t.Attended thread

variable {t t' : Attendance} {k : Nat} {d e : Delivery} {thread : Thread}

/-- A delivery that goes on keeps the thread's handler, if it is with one still. -/
theorem Attended.set (h : t.Attended thread) (known : t.deliveries k = some d)
    (keep : d.thread = thread → d.stage.attended = true →
      e.thread = thread ∧ e.stage.attended = true) :
    (t.setDelivery k e).Attended thread := by
  obtain ⟨j, d', known', mine, attended⟩ := h
  by_cases hj : j = k
  · subst hj
    rw [known] at known'
    cases known'
    exact ⟨j, e, Function.update_self .., keep mine attended⟩
  · exact ⟨j, d', (Function.update_of_ne hj ..).trans known', mine, attended⟩

theorem Marked.deliver (h : Marked t) (known : t.deliveries k = some d) :
    Marked ({ t with ambassador := (d.step t.ambassador).2 }.setDelivery k
      (d.step t.ambassador).1) := by
  intro thread mark
  have mark : (d.step t.ambassador).2.handling = some thread := mark
  rw [d.handling_step] at mark
  cases hs : d.stage with
  | entering n c =>
    simp only [hs, Option.some.injEq] at mark
    exact ⟨k, _, Function.update_self .., by simp only [Delivery.step, hs]; exact mark,
      by simp only [Delivery.step, hs]; rfl⟩
  | leaving n x =>
    simp only [hs] at mark
    cases mark
  | handling n c =>
    simp only [hs] at mark
    refine (h thread mark).set (t := { t with ambassador := _ }) known fun mine attended => ?_
    simp only [Delivery.step, hs]
    exact ⟨mine, rfl⟩
  | _ =>
    simp only [hs] at mark
    refine (h thread mark).set (t := { t with ambassador := _ }) known fun _ attended => ?_
    rw [hs] at attended
    cases attended

theorem Marked.step (h : Marked t) (hs : Step t t') : Marked t' := by
  cases hs with
  | begin session thread new =>
    intro marked mark
    obtain ⟨j, d, known, mine, attended⟩ := h marked mark
    exact ⟨j, d, update_of_new new known, mine, attended⟩
  | deliver known => exact h.deliver known
  | @returns k d known x answered =>
    refine fun thread mark => (h thread mark).set known fun mine attended => ?_
    unfold Delivery.returned
    split
    · exact ⟨mine, rfl⟩
    · exact ⟨mine, attended⟩
  | @verdict k d known =>
    refine fun thread mark => (h thread mark).set known fun mine attended => ?_
    unfold Delivery.heard
    split
    · next stage =>
      rw [stage] at attended
      cases attended
    · exact ⟨mine, attended⟩
  | errand e =>
    intro thread mark
    exact h thread ((e.handling_and_held_step t.ambassador).1.symm.trans mark)
  | summon name thread new => exact h
  | look known => exact h
  | seize free => exact h
  | yields retires joined => exact h
  | aside a same place => exact fun thread mark => h thread (same.symm.trans mark)

theorem Reachable.marked (h : Reachable t) : Marked t := by
  obtain ⟨settings, hs⟩ := h
  induction hs with
  | refl => exact fun _ mark => by cases mark
  | tail _ hs ih => exact ih.step hs

/-- **Only a thread that a handler has is marked**, over all sessions and in every order of
steps. -/
theorem Reachable.attended (h : Reachable t) (mark : t.ambassador.inCallback thread = true) :
    t.Attended thread :=
  h.marked thread (by simpa [Ambassador.inCallback] using mark)

/-! ## A summons without end -/

/-- A connection is being retired, and its dispatcher is in a handler that waits to see it. -/
structure Deadlocked (c : Connection) (k j : Nat) (name : String) (t : Attendance) : Prop where
  held : t.ambassador.held = true
  retiring : t.retiring = some c
  handler : ∃ d, t.deliveries k = some d ∧ d.session = c.session ∧ d.thread = .dispatcher ∧
    ∃ n x, d.stage = .handling n x
  summons : t.summonses j = some (.fresh name .dispatcher)

variable {c : Connection} {j : Nat} {name : String}

/-- Neither of the two goes on, whatever others do. -/
theorem Deadlocked.step (h : Deadlocked c k j name t) (immediate : c.model = .immediate)
    (hs : Step t t') : Deadlocked c k j name t' := by
  obtain ⟨held, retiring, ⟨d, known, session, thread, n, x, handling⟩, summons⟩ := h
  have idle : ∀ a, d.step a = (d, a) ∧ d.heard = d := fun a => by
    simp only [Delivery.step, Delivery.heard, handling, and_self]
  have keep {k' : Nat} {d' e : Delivery} (known' : t.deliveries k' = some d')
      (same : d' = d → e = d) : ∃ d, update t.deliveries k' (some e) k = some d ∧
        d.session = c.session ∧ d.thread = .dispatcher ∧ ∃ n x, d.stage = .handling n x := by
    refine ⟨d, ?_, session, thread, n, x, handling⟩
    by_cases hk : k = k'
    · subst hk
      rw [known] at known'
      rw [Function.update_self, same (Option.some.inj known').symm]
    · rw [Function.update_of_ne hk, known]
  cases hs with
  | begin session' thread' new =>
    exact ⟨held, retiring, ⟨d, update_of_new new known, session, thread, n, x, handling⟩, summons⟩
  | @deliver k' d' known' =>
    refine ⟨(d'.held_step _).trans held, retiring, keep known' ?_, summons⟩
    rintro rfl
    rw [(idle _).1]
  | @returns k' d' known' x' answered =>
    refine ⟨held, retiring, keep known' ?_, summons⟩
    -- The handler's own thread has no answer yet.
    rintro rfl
    have := answered j _ summons thread.symm
    cases this
  | @verdict k' d' known' =>
    refine ⟨held, retiring, keep known' ?_, summons⟩
    rintro rfl
    exact (idle t.ambassador).2
  | @summon j' name' thread' new =>
    exact ⟨held, retiring, ⟨d, known, session, thread, n, x, handling⟩, update_of_new new summons⟩
  | @look j' s known' =>
    refine ⟨held, retiring, ⟨d, known, session, thread, n, x, handling⟩, ?_⟩
    by_cases hj : j = j'
    · subst hj
      rw [summons] at known'
      cases known'
      have unseen : t.ambassador.look = none := by simp only [Ambassador.look, held, if_true]
      show update t.summonses j _ j = _
      rw [Function.update_self]
      simp only [Summons.step, Summons.fresh, unseen]
    · exact (Function.update_of_ne hj ..).trans summons
  | seize free =>
    rw [held] at free
    cases free
  | yields retires joined =>
    rw [retiring] at retires
    cases retires
    obtain ⟨delivered, ended⟩ := joined immediate k d known session thread
    rw [handling] at ended
    cases ended
  | errand e =>
    exact ⟨(e.handling_and_held_step _).2.trans held, retiring,
      ⟨d, known, session, thread, n, x, handling⟩, summons⟩
  | aside a same place =>
    exact ⟨place.trans held, retiring, ⟨d, known, session, thread, n, x, handling⟩, summons⟩

theorem Deadlocked.steps (h : Deadlocked c k j name t) (immediate : c.model = .immediate)
    (hs : Relation.ReflTransGen Step t t') : Deadlocked c k j name t' := by
  induction hs with
  | refl => exact h
  | tail _ hs ih => exact ih.step immediate hs

/-- A client that has lost its session, of which its dispatcher has yet to tell the federate. -/
def bereft : Ambassador :=
  { Ambassador.fresh .standard with
    sessions :=
      [((⟨.fresh ⟨none, none, .zero, none, ""⟩ .zero, .fresh⟩ : Presence).lose "gone").session]
    connection := some ⟨0, .immediate, .standard⟩ }

/-- The dispatcher tells the federate that the session is lost; the federate connects again, and
holds the place of the connection until the dispatcher has ended; and the handler evokes callbacks.
Its thread is marked, but the handler is never refused: it waits for the connection, and whoever
connects waits for it. -/
theorem summons_without_end : ∃ t, Reachable t ∧ t.ambassador.inCallback .dispatcher = true ∧
    t.summonses 0 = some (.fresh "evokeCallback" .dispatcher) ∧
    ∀ u, Relation.ReflTransGen Step t u →
      u.summonses 0 = some (.fresh "evokeCallback" .dispatcher) ∧ u.ambassador.held = true ∧
        u.retiring = some ⟨0, .immediate, .standard⟩ := by
  have begun := (Relation.ReflTransGen.single
    (Step.aside (t := fresh .standard) bereft rfl rfl)).tail (.begin (k := 0) 0 .dispatcher rfl)
  have taken := begun.tail (.deliver (k := 0) rfl)
  have examined := taken.tail (.deliver (k := 0) rfl)
  have observed := examined.tail (.deliver (k := 0) rfl)
  have entered := observed.tail (.deliver (k := 0) rfl)
  have seized := entered.tail (.seize rfl)
  have summoned := seized.tail (.summon (j := 0) "evokeCallback" .dispatcher rfl)
  refine ⟨_, ⟨_, summoned⟩, rfl, rfl, fun u hu => ?_⟩
  have deadlocked : Deadlocked ⟨0, .immediate, .standard⟩ 0 0 "evokeCallback" u :=
    Deadlocked.steps ⟨rfl, rfl, ⟨_, rfl, rfl, rfl, _, _, rfl⟩, rfl⟩ rfl hu
  exact ⟨deadlocked.summons, deadlocked.held, deadlocked.retiring⟩

end Attendance

end Federate
