/-
The sessions of a client that replace one another, and those who evoke their
callbacks. Any number of threads evoke, each on the session that was in use when
it began, one delivery after another if there is time for more. One at a time
may change the connection: take it out of use, stop the queue of its session,
reset the standing, open another session, mark the federate as connected, and
put the new connection into use. Everybody has the next step at any time, and
between the steps callbacks arrive, sessions are lost and the standing moves, as
long as the connection stays.

When a federate is marked as connected, an observer notes who may still have
something to deliver for a session before. From then on nobody else who evokes
for such a session moves the standing (`Reachable.undisturbed`). Those who were
noted may: a notice that was taken out of the queue of the old session ends the
membership in the new one (`connection_ended_by_old_notice`).
-/
import Mathlib.Logic.Relation
import Federate.Proofs.Delivery.Course
import Federate.Proofs.Rows
namespace Federate

open Function (update)

/-- Somebody evokes. -/
structure Evocation where
  delivery : Delivery
  /-- One delivery may follow another. -/
  many : Bool

namespace Evocation

/-- Nothing that is still delivered moves the standing: the item at hand has moved it, if it is
to, and none follows. -/
def Spent (e : Evocation) : Prop :=
  e.delivery.stage.passed = true ∧ (e.many = true → e.delivery.stage = .ended false)

/-- The next delivery, for the same session and on the same thread. -/
def again (e : Evocation) : Evocation :=
  { e with delivery := .fresh e.delivery.session e.delivery.thread }

def goTo (e : Evocation) (d : Delivery) : Evocation := { e with delivery := d }

end Evocation

/-- How far a change of the connection has come. -/
inductive Turnover where
  /-- Nobody changes it. -/
  | none
  | taken
  | opened (session : Nat)
  | marked (session : Nat)

/-- The sessions of a client, and those who evoke. -/
structure Succession where
  ambassador : Ambassador
  evocations : Nat → Option Evocation
  turnover : Turnover
  /-- The session for which the federate was marked as connected last. -/
  latest : Option Nat
  /-- Who was not spent when it was. -/
  lingering : Nat → Prop

namespace Succession

/-- The sessions of a new client. -/
def fresh (settings : Settings) : Succession where
  ambassador := .fresh settings
  evocations _ := none
  turnover := .none
  latest := none
  lingering _ := False

def standing (t : Succession) : Standing := t.ambassador.standing

def setEvocation (t : Succession) (k : Nat) (e : Evocation) : Succession :=
  { t with evocations := update t.evocations k (some e) }

/-- Who evokes and is not spent. -/
def Unspent (t : Succession) (k : Nat) : Prop := ∃ e, t.evocations k = some e ∧ ¬ e.Spent

/-- A step of those who evoke, or of whoever changes the connection. -/
inductive Step (t : Succession) : Succession → Prop where
  | begin {k : Nat} {c : Connection} (thread : Thread) (many : Bool) (new : t.evocations k = none)
    (used : t.ambassador.connection = some c) :
    Step t (t.setEvocation k ⟨.fresh c.session thread, many⟩)
  | deliver {k : Nat} {e : Evocation} (known : t.evocations k = some e) :
    Step t ({ t with ambassador := (e.delivery.step t.ambassador).2 }.setEvocation k
      (e.goTo (e.delivery.step t.ambassador).1))
  | returns {k : Nat} {e : Evocation} (known : t.evocations k = some e) (h : Handling) :
    Step t (t.setEvocation k (e.goTo (e.delivery.returned h)))
  | verdict {k : Nat} {e : Evocation} (known : t.evocations k = some e) :
    Step t (t.setEvocation k (e.goTo e.delivery.heard))
  | again {k : Nat} {e : Evocation} (known : t.evocations k = some e) (many : e.many = true)
    (delivered : e.delivery.stage = .ended true) : Step t (t.setEvocation k e.again)
  -- A change of the connection, from its beginning to its end.
  | take (nobody : t.turnover = .none) :
    Step t { t with ambassador := t.ambassador.takeConnection.2, turnover := .taken }
  | stop (session : Nat) (taken : t.turnover = .taken) :
    Step t { t with ambassador := t.ambassador.alterSession session (·.onQueue .stop) }
  | opens (limits : Session.Limits) (taken : t.turnover = .taken) :
    Step t { t with
      ambassador := (t.ambassador.openSession limits).2
      turnover := .opened (t.ambassador.openSession limits).1 }
  | mark {i : Nat} (opened : t.turnover = .opened i) :
    Step t { t with
      ambassador := t.ambassador.markConnected
      turnover := .marked i
      latest := some i
      lingering := t.Unspent }
  | use {c : Connection} (marked : t.turnover = .marked c.session) :
    Step t { t with ambassador := t.ambassador.use c, turnover := .none }
  /-- After a disconnection, or when the session is lost before it is put into use. -/
  | reset (changing : t.turnover ≠ .none) : Step t { t with ambassador := t.ambassador.reset }
  /-- The change is over, and no connection is in use. -/
  | release (changing : t.turnover ≠ .none) : Step t { t with turnover := .none }
  /-- Anything else. -/
  | aside (a : Ambassador) (connection : a.connection = t.ambassador.connection) :
    Step t { t with ambassador := a }

/-- The sessions of a client, at any time. -/
def Reachable (t : Succession) : Prop :=
  ∃ settings, Relation.ReflTransGen Step (fresh settings) t

end Succession

/-! ## Those who are spent -/

namespace Evocation

variable {e : Evocation}

theorem Spent.step (h : e.Spent) (a : Ambassador) : (e.goTo (e.delivery.step a).1).Spent := by
  refine ⟨Delivery.passed_step h.1 a, fun hm => ?_⟩
  show (e.delivery.step a).1.stage = _
  rw [(Delivery.over_of_found_none (h.2 hm) a .returned).1]
  exact h.2 hm

theorem Spent.returned (h : e.Spent) (x : Handling) : (e.goTo (e.delivery.returned x)).Spent := by
  refine ⟨Delivery.passed_returned h.1 x, fun hm => ?_⟩
  show (e.delivery.returned x).stage = _
  rw [Delivery.returned, h.2 hm]
  exact h.2 hm

theorem Spent.heard (h : e.Spent) : (e.goTo e.delivery.heard).Spent := by
  refine ⟨Delivery.passed_heard h.1, fun hm => ?_⟩
  show e.delivery.heard.stage = _
  rw [Delivery.heard, h.2 hm]
  exact h.2 hm

/-- No delivery follows in the place of one that is spent. -/
theorem Spent.not_again (h : e.Spent) (many : e.many = true)
    (delivered : e.delivery.stage = .ended true) : False := by
  have := h.2 many
  rw [delivered] at this
  cases this

end Evocation

namespace Succession

variable {t t' : Succession} {k : Nat} {e : Evocation}

/-! ## What always holds -/

/-- The connection in use is that of the session marked last, and whoever evokes for another session
and was not noted is spent. -/
structure Orderly (t : Succession) : Prop where
  used : ∀ c, t.ambassador.connection = some c → t.turnover = .none ∧ t.latest = some c.session
  marked : ∀ i, t.turnover = .marked i → t.latest = some i
  spent : ∀ k e, t.evocations k = some e → t.latest ≠ some e.delivery.session →
    ¬ t.lingering k → e.Spent

namespace Orderly

/-- While the connection is being changed, none is in use. -/
theorem unused (h : Orderly t) (changing : t.turnover ≠ .none) :
    t.ambassador.connection = none := by
  cases hc : t.ambassador.connection with
  | none => rfl
  | some c => exact absurd (h.used c hc).1 changing

/-- The change of the connection goes on without one. -/
theorem unconnected (h : Orderly t) {a : Ambassador} {x : Turnover} (none : a.connection = none)
    (marked : ∀ i, x = .marked i → t.turnover = .marked i) :
    Orderly { t with ambassador := a, turnover := x } where
  used c hc := by
    rw [none] at hc
    cases hc
  marked i hi := h.marked i (marked i hi)
  spent := h.spent

/-- The ambassador changes, and its connection stays. -/
theorem alter (h : Orderly t) {a : Ambassador} (same : a.connection = t.ambassador.connection) :
    Orderly { t with ambassador := a } where
  used c hc := h.used c (same ▸ hc)
  marked := h.marked
  spent := h.spent

/-- Somebody begins to evoke, or goes on. -/
theorem set (h : Orderly t)
    (spent : t.latest ≠ some e.delivery.session → ¬ t.lingering k → e.Spent) :
    Orderly (t.setEvocation k e) where
  used := h.used
  marked := h.marked
  spent j f hf := by
    rcases of_update hf with ⟨rfl, rfl⟩ | ⟨-, hf⟩
    · exact spent
    · exact h.spent j f hf

theorem step (h : Orderly t) (hs : Step t t') : Orderly t' := by
  cases hs with
  | begin thread many new used =>
    exact h.set fun other _ => absurd (h.used _ used).2 other
  | @deliver k e known =>
    obtain ⟨session, connection⟩ := e.delivery.step_keeps t.ambassador
    refine (h.alter connection).set fun other unnoted => ?_
    exact (h.spent k e known (session ▸ other) unnoted).step t.ambassador
  | @returns k e known x =>
    refine h.set fun other unnoted => ?_
    exact (h.spent k e known (e.delivery.session_returned x ▸ other) unnoted).returned x
  | @verdict k e known =>
    refine h.set fun other unnoted => ?_
    exact (h.spent k e known (e.delivery.session_heard ▸ other) unnoted).heard
  | @again k e known many delivered =>
    refine h.set fun other unnoted => ?_
    exact ((h.spent k e known other unnoted).not_again many delivered).elim
  | take nobody => exact h.unconnected rfl nofun
  | stop session taken => exact h.alter rfl
  | opens limits taken =>
    exact h.unconnected (h.unused (by rw [taken]; nofun)) nofun
  | @mark i opened =>
    have unused := h.unused (by rw [opened]; nofun)
    exact {
      used := fun c hc => by
        rw [show t.ambassador.markConnected.connection = none from unused] at hc
        cases hc
      marked := fun j hj => by cases hj; rfl
      spent := fun k e known _ unnoted => by
        by_contra unspent
        exact unnoted ⟨e, known, unspent⟩ }
  | @use c marked =>
    exact {
      used := fun d hd => by
        cases hd
        exact ⟨rfl, h.marked _ marked⟩
      marked := nofun
      spent := h.spent }
  | reset changing => exact h.alter rfl
  | release changing => exact h.unconnected (h.unused changing) nofun
  | aside a connection => exact h.alter connection

end Orderly

theorem orderly_fresh (settings : Settings) : Orderly (fresh settings) where
  used c hc := by cases hc
  marked i hi := by cases hi
  spent k e known := by cases known

theorem Reachable.orderly (h : Reachable t) : Orderly t := by
  obtain ⟨settings, hs⟩ := h
  induction hs with
  | refl => exact orderly_fresh settings
  | tail _ hs ih => exact ih.step hs

/-- **Whoever evokes for an earlier session leaves the standing alone**, once the federate has been
marked as connected for another, unless there was still something to deliver then. In that case the
standing moves as the callback has it. -/
theorem Reachable.undisturbed (h : Reachable t) (known : t.evocations k = some e)
    (earlier : t.latest ≠ some e.delivery.session) :
    (e.delivery.step t.ambassador).2.standing = t.standing ∨
      t.lingering k ∧ ∃ n c, e.delivery.stage = .observing n c ∧
        (e.delivery.step t.ambassador).2.standing = t.standing.observe c.kind := by
  by_cases noted : t.lingering k
  · have moves := e.delivery.standing_step t.ambassador
    cases hs : e.delivery.stage with
    | observing n c =>
      rw [hs] at moves
      exact .inr ⟨noted, n, c, rfl, moves⟩
    | _ =>
      rw [hs] at moves
      exact .inl moves
  · exact .inl (Delivery.standing_of_passed (h.orderly.spent k e known earlier noted).1 _)

/-! ## A client that connects twice -/

/-- A client that is connected for the first time, and whose queue holds an item. -/
def first (item : CallbackQueue.Item) : Succession where
  ambassador := { Ambassador.fresh .standard with
    standing := .fresh
    sessions := [(Session.fresh ⟨none, none, .zero, none, ""⟩ .zero).onQueue (·.push item)]
    connection := some ⟨0, .evoked, .standard⟩ }
  evocations _ := none
  turnover := .none
  latest := some 0
  lingering := (fresh .standard).Unspent

theorem steps_first (item : CallbackQueue.Item) :
    Relation.ReflTransGen Step (fresh .standard) (first item) := by
  have taken := Relation.ReflTransGen.single (Step.take (t := fresh .standard) rfl)
  have opened := taken.tail (.opens ⟨none, none, .zero, none, ""⟩ rfl)
  have marked := opened.tail (.mark (i := 0) rfl)
  have used := marked.tail (.use (c := ⟨0, .evoked, .standard⟩) rfl)
  exact used.tail (.aside (first item).ambassador rfl)

/-- The handler of a callback of the first session runs while the federate disconnects and connects
again. -/
theorem undisturbed_by_handler : ∃ t e, Reachable t ∧ t.evocations 0 = some e ∧
    t.latest = some 1 ∧ e.delivery.session = 0 ∧ t.standing = .fresh ∧
    (e.delivery.step t.ambassador).2.standing = .fresh := by
  have begun := (steps_first (.request 5 ⟨21, []⟩)).tail
    (.begin (k := 0) .application false rfl rfl)
  have taken := begun.tail (.deliver (k := 0) rfl)
  have read := taken.tail (.deliver (k := 0) rfl)
  have observed := read.tail (.deliver (k := 0) rfl)
  have called := observed.tail (.deliver (k := 0) rfl)
  have unused := called.tail (.take rfl)
  have stopped := unused.tail (.stop 0 rfl)
  have reset := stopped.tail (.reset nofun)
  have opened := reset.tail (.opens ⟨none, none, .zero, none, ""⟩ rfl)
  have marked := opened.tail (.mark (i := 1) rfl)
  have used := marked.tail (.use (c := ⟨1, .evoked, .standard⟩) rfl)
  have returned := used.tail (.returns (k := 0) rfl .returned)
  refine ⟨_, _, ⟨.standard, returned⟩, rfl, rfl, rfl, rfl, ?_⟩
  refine (Reachable.undisturbed (k := 0) ⟨.standard, returned⟩ rfl nofun).resolve_right ?_
  rintro ⟨-, n, c, stage, -⟩
  cases stage

/-- The first session is lost, and the notice of that has been taken out of its queue when the
federate connects again. It ends the connection that has just been made. -/
theorem connection_ended_by_old_notice : ∃ t e, Reachable t ∧ t.evocations 0 = some e ∧
    t.latest = some 1 ∧ t.ambassador.connection = some ⟨1, .evoked, .standard⟩ ∧
    e.delivery.session = 0 ∧ t.standing.connected = true ∧
    (e.delivery.step t.ambassador).2.standing.connected = false := by
  have begun := (steps_first (.lost "cut")).tail (.begin (k := 0) .application false rfl rfl)
  have taken := begun.tail (.deliver (k := 0) rfl)
  have read := taken.tail (.deliver (k := 0) rfl)
  have unused := read.tail (.take rfl)
  have stopped := unused.tail (.stop 0 rfl)
  have opened := stopped.tail (.opens ⟨none, none, .zero, none, ""⟩ rfl)
  have marked := opened.tail (.mark (i := 1) rfl)
  have used := marked.tail (.use (c := ⟨1, .evoked, .standard⟩) rfl)
  exact ⟨_, _, ⟨.standard, used⟩, rfl, rfl, rfl, rfl, rfl, rfl⟩

end Succession

end Federate
