/-
The family in which the times of a callback are read. Callbacks arrive and wait
in the queue of their session, deliveries take them out and read them, and
meanwhile the standing moves: answers come in, errands succeed, the federate
connects and disconnects. All of it goes on at once, in any order.

Beside it all, an observer notes what is done to the standing, and with each
item what had been done to it when the item was pushed. No step looks at these
notes.

An item is read in the family of the latest step that settled one, be it before
the item was pushed or after (`Reachable.decoded`): in that of the federation
from which it came as long as the federate neither leaves it nor joins again
before the item is read, and otherwise in whatever family is settled by then
(`grant_in_other_family`).
-/
import Mathlib.Logic.Relation
import Federate.Proofs.Ambassador.Affairs
import Federate.Proofs.Standing.Family
namespace Federate

open Function (update)

/-- The callbacks of a session, on their way from their arrival to their handlers. -/
structure Decoding where
  ambassador : Ambassador
  deliveries : Nat → Option Delivery
  /-- What was done to the standing, first to last. -/
  history : List Event
  /-- What waits in the queue, first to last, each with what had been done to the standing when it
  was pushed. -/
  waiting : List (CallbackQueue.Item × List Event)
  /-- What had been done to the standing when the item was pushed that a delivery was handed. -/
  arrival : Nat → Option (List Event)

namespace Decoding

/-- Before anything has been pushed, when something has been done to the standing. -/
def fresh (a : Ambassador) (past : List Event) : Decoding where
  ambassador := a
  deliveries _ := none
  history := past
  waiting := []
  arrival _ := none

def queue (t : Decoding) (i : Nat) : CallbackQueue := (t.ambassador.session i).queue

def setDelivery (t : Decoding) (k : Nat) (d : Delivery) : Decoding :=
  { t with deliveries := update t.deliveries k (some d) }

/-- What other doings leave as it is. -/
structure Leaves (i : Nat) (a a' : Ambassador) : Prop where
  items : (a'.session i).queue.items = (a.session i).queue.items
  known : i < a.sessions.length → i < a'.sessions.length

/-- A step of the callbacks of a session. -/
inductive Step (i : Nat) (t : Decoding) : Decoding → Prop where
  | push (item : CallbackQueue.Item) (ordinary : item.isStop = false) :
    Step i t { t with
      ambassador := t.ambassador.alterSession i (·.onQueue (·.push item))
      waiting := t.waiting ++ [(item, t.history)] }
  | stop :
    Step i t { t with
      ambassador := t.ambassador.alterSession i (·.onQueue (·.stop))
      waiting := t.waiting ++ [(.stop, t.history)] }
  | begin {k : Nat} (thread : Thread) (new : t.deliveries k = none) :
    Step i t (t.setDelivery k (.fresh i thread))
  /-- A delivery takes out the first item. -/
  | takes {k : Nat} {d : Delivery} {item : CallbackQueue.Item} {q : CallbackQueue}
    (known : t.deliveries k = some d) (stage : d.stage = .taking)
    (next : (t.queue i).next = (some item, q)) (first : (t.queue i).items = item :: q.items) :
    Step i t ({ t with
      ambassador := (d.step t.ambassador).2
      waiting := t.waiting.tail
      arrival := update t.arrival k (t.waiting.head?.map Prod.snd) }.setDelivery k
        (d.step t.ambassador).1)
  /-- A delivery goes on, or takes nothing out. -/
  | deliver {k : Nat} {d : Delivery} (known : t.deliveries k = some d)
    (leaves : d.stage = .taking → (t.queue i).next.2 = t.queue i) :
    Step i t ({ t with
      ambassador := (d.step t.ambassador).2
      history := t.history ++ d.event?.toList }.setDelivery k (d.step t.ambassador).1)
  | returns {k : Nat} {d : Delivery} (known : t.deliveries k = some d) (h : Handling) :
    Step i t (t.setDelivery k (d.returned h))
  | verdict {k : Nat} {d : Delivery} (known : t.deliveries k = some d) :
    Step i t (t.setDelivery k d.heard)
  /-- Somebody else moves the standing. -/
  | moves (x : Event) :
    Step i t { t with
      ambassador := { t.ambassador with standing := t.ambassador.standing.after x.move }
      history := t.history ++ [x] }
  /-- Anything else. -/
  | aside (a : Ambassador) (leaves : Leaves i t.ambassador a)
    (standing : a.standing = t.ambassador.standing) : Step i t { t with ambassador := a }

/-- The callbacks of a session that has begun, at any time. -/
def Reachable (i : Nat) (t : Decoding) : Prop :=
  ∃ a past, i < a.sessions.length ∧ (a.session i).queue = .fresh ∧
    a.standing = Event.stand past ∧ Relation.ReflTransGen (Step i) (fresh a past) t

variable {i k : Nat} {t t' : Decoding} {d : Delivery}

/-! ## What a step of a delivery leaves -/

theorem leaves_self (a : Ambassador) : Leaves i a a := ⟨rfl, id⟩

theorem leaves_alterSession {a : Ambassador} (hi : i < a.sessions.length) {f : Session → Session}
    (items : (f (a.session i)).queue.items = (a.session i).queue.items) :
    Leaves i a (a.alterSession i f) :=
  ⟨by rw [Ambassador.session_alterSession f hi, items],
    fun _ => by rwa [Ambassador.length_alterSession]⟩

/-- A delivery that takes nothing out leaves what waits. -/
theorem leaves_step {a : Ambassador} (hi : d.session < a.sessions.length)
    (leaves : d.stage = .taking →
      (a.session d.session).queue.next.2 = (a.session d.session).queue) :
    Leaves d.session a (d.step a).2 := by
  cases hs : d.stage with
  | taking =>
    have := leaves_alterSession hi (f := fun s => s.onQueue (·.next.2))
      (congrArg CallbackQueue.items (leaves hs))
    simp only [Delivery.step, hs, Ambassador.onSession]
    cases (a.session d.session).queue.next.1 <;> exact this
  | counting n fault | finishing =>
    simp only [Delivery.step, hs]
    exact leaves_alterSession hi rfl
  | answering n fault =>
    cases n with
    | none =>
      simp only [Delivery.step, hs]
      exact leaves_self a
    | some n =>
      simp only [Delivery.step, hs]
      split
      · exact leaves_self a
      · exact leaves_alterSession hi rfl
  | _ =>
    simp only [Delivery.step, hs]
    exact ⟨rfl, id⟩

/-- A queue that gives up its first item is another. -/
theorem ne_of_items {q q' : CallbackQueue} {item : CallbackQueue.Item}
    (first : q.items = item :: q'.items) : q' ≠ q := by
  rintro rfl
  exact absurd (congrArg List.length first) (by simp)

theorem examine_ne_taken (family : Option TimeFamily) (item other : CallbackQueue.Item) :
    Delivery.examine family item ≠ .taken other := by
  cases item with
  | request n e =>
    simp only [Delivery.examine]
    split <;> rintro ⟨⟩
  | _ => rintro ⟨⟩

/-- A delivery that takes nothing out comes to have no item, but for the marker. -/
theorem stop_of_step {a : Ambassador} {item : CallbackQueue.Item}
    (leaves : d.stage = .taking →
      (a.session d.session).queue.next.2 = (a.session d.session).queue)
    (taken : (d.step a).1.stage = .taken item) : item = .stop := by
  cases hs : d.stage with
  | taking =>
    simp only [Delivery.step, hs, Ambassador.onSession] at taken
    rcases (a.session d.session).queue.next_split with
      (none | ⟨marker, -⟩) | ⟨x, q, next, -, -, first, -⟩
    · rw [none] at taken
      cases taken
    · rw [marker] at taken
      simp only [Delivery.goTo, Delivery.receive] at taken
      split at taken <;> cases taken
      rfl
    · have same := leaves hs
      rw [next] at same
      exact absurd same (ne_of_items first)
  | taken other =>
    simp only [Delivery.step, hs] at taken
    exact (examine_ne_taken _ _ _ taken).elim
  | answering n fault =>
    cases n with
    | none =>
      simp only [Delivery.step, hs] at taken
      cases taken
    | some n =>
      simp only [Delivery.step, hs] at taken
      split at taken <;> cases taken
  | _ =>
    simp only [Delivery.step, hs, Delivery.goTo] at taken
    cases taken

/-! ## What always holds -/

/-- The notes say what waits, and how the standing came about. -/
structure Traced (i : Nat) (t : Decoding) : Prop where
  known : i < t.ambassador.sessions.length
  home : ∀ k d, t.deliveries k = some d → d.session = i
  items : (t.queue i).items = t.waiting.map Prod.fst
  pushed : ∀ x ∈ t.waiting, x.2 <+: t.history
  arrived : ∀ k d item, t.deliveries k = some d → d.stage = .taken item → item.isStop = false →
    ∃ past, t.arrival k = some past ∧ past <+: t.history
  standing : t.ambassador.standing = Event.stand t.history

namespace Traced

/-- What waits stays, and no delivery comes to have an item. -/
theorem keeps (h : Traced i t) {a : Ambassador} {deliveries : Nat → Option Delivery}
    {x : Option Event} (leaves : Leaves i t.ambassador a)
    (standing : a.standing = t.ambassador.standing.afterEvent x)
    (rows : ∀ k d, deliveries k = some d → d.session = i ∧
      ∀ item, d.stage = .taken item → item.isStop = false → t.deliveries k = some d) :
    Traced i { t with ambassador := a, deliveries, history := t.history ++ x.toList } where
  known := leaves.known h.known
  home k d hd := (rows k d hd).1
  items := leaves.items.trans h.items
  pushed y hy := (h.pushed y hy).trans (List.prefix_append ..)
  arrived k d item hd hs ordinary := by
    obtain ⟨past, ha, hp⟩ := h.arrived k d item ((rows k d hd).2 item hs ordinary) hs ordinary
    exact ⟨past, ha, hp.trans (List.prefix_append ..)⟩
  standing := by
    rw [standing, h.standing]
    cases x with
    | none => rw [Option.toList_none, List.append_nil]; rfl
    | some x => rw [Option.toList_some, Event.stand_append_singleton]; rfl

/-- An item is pushed. -/
theorem pushes (h : Traced i t) {a : Ambassador} {item : CallbackQueue.Item}
    (items : (a.session i).queue.items = (t.queue i).items ++ [item])
    (known : i < a.sessions.length) (standing : a.standing = t.ambassador.standing) :
    Traced i { t with ambassador := a, waiting := t.waiting ++ [(item, t.history)] } where
  known := known
  home := h.home
  items := by
    show (a.session i).queue.items = _
    rw [items, h.items, List.map_append, List.map_singleton]
  pushed y hy := by
    rcases List.mem_append.mp hy with hy | hy
    · exact h.pushed y hy
    · cases List.mem_singleton.mp hy
      exact List.prefix_rfl
  arrived := h.arrived
  standing := standing.trans h.standing

/-- A delivery goes on, and has nothing that it had not before. -/
theorem row (h : Traced i t) {e : Delivery} (home : e.session = i)
    (taken : ∀ item, e.stage = .taken item → item.isStop = false → t.deliveries k = some e)
    (j : Nat) (d : Delivery) (hd : update t.deliveries k (some e) j = some d) :
    d.session = i ∧
      ∀ item, d.stage = .taken item → item.isStop = false → t.deliveries j = some d := by
  rcases of_update hd with ⟨rfl, rfl⟩ | ⟨-, hd⟩
  · exact ⟨home, taken⟩
  · exact ⟨h.home j d hd, fun _ _ _ => hd⟩

/-- A delivery takes out the first item, and with it what is noted of it. -/
theorem takes {item : CallbackQueue.Item} {q : CallbackQueue} (h : Traced i t)
    (known : t.deliveries k = some d) (stage : d.stage = .taking)
    (next : (t.queue i).next = (some item, q)) (first : (t.queue i).items = item :: q.items) :
    Traced i ({ t with
      ambassador := (d.step t.ambassador).2
      waiting := t.waiting.tail
      arrival := update t.arrival k (t.waiting.head?.map Prod.snd) }.setDelivery k
        (d.step t.ambassador).1) := by
  have home := h.home k d known
  subst home
  have stepped : d.step t.ambassador = (d.goTo (d.receive item),
      t.ambassador.alterSession d.session (·.onQueue (·.next.2))) := by
    have next' : (t.ambassador.session d.session).queue.next = (some item, q) := next
    simp only [Delivery.step, stage, Ambassador.onSession, next']
    rfl
  obtain ⟨past, rest, waiting, items⟩ : ∃ past rest, t.waiting = (item, past) :: rest ∧
      q.items = rest.map Prod.fst := by
    have hitems := h.items
    rw [first] at hitems
    cases hw : t.waiting with
    | nil => rw [hw] at hitems; cases hitems
    | cons x rest =>
      rw [hw, List.map_cons, List.cons.injEq] at hitems
      obtain ⟨rfl, hrest⟩ := hitems
      exact ⟨x.2, rest, rfl, hrest⟩
  have before : past <+: t.history :=
    h.pushed (item, past) (by rw [waiting]; exact List.mem_cons_self)
  rw [stepped, waiting]
  exact {
    known := by
      show d.session < (t.ambassador.alterSession ..).sessions.length
      rw [Ambassador.length_alterSession]
      exact h.known
    home := fun j e he => by
      rcases of_update he with ⟨-, rfl⟩ | ⟨-, he⟩
      · rfl
      · exact h.home j e he
    items := by
      show ((t.ambassador.alterSession d.session _).session d.session).queue.items =
        rest.map Prod.fst
      rw [Ambassador.session_alterSession _ h.known, ← items]
      show (t.queue d.session).next.2.items = _
      rw [next]
    pushed := fun x hx => h.pushed x (by rw [waiting]; exact .tail _ hx)
    arrived := fun j e other he hs ordinary => by
      rcases of_update he with ⟨rfl, rfl⟩ | ⟨hj, he⟩
      · exact ⟨past, Function.update_self .., before⟩
      · obtain ⟨past, ha, hp⟩ := h.arrived j e other he hs ordinary
        exact ⟨past, (Function.update_of_ne hj ..).trans ha, hp⟩
    standing := h.standing }

theorem step (h : Traced i t) (hs : Step i t t') : Traced i t' := by
  -- Nothing is done to the standing.
  have still {a : Ambassador} {deliveries : Nat → Option Delivery}
      (leaves : Leaves i t.ambassador a) (standing : a.standing = t.ambassador.standing)
      (rows : ∀ k d, deliveries k = some d → d.session = i ∧
        ∀ item, d.stage = .taken item → item.isStop = false → t.deliveries k = some d) :
      Traced i { t with ambassador := a, deliveries } := by
    have := h.keeps (x := none) leaves standing rows
    rwa [Option.toList_none, List.append_nil] at this
  cases hs with
  | push item ordinary =>
    refine h.pushes ?_ (by rw [Ambassador.length_alterSession]; exact h.known) rfl
    rw [Ambassador.session_alterSession _ h.known]
    exact CallbackQueue.items_push ..
  | stop =>
    refine h.pushes ?_ (by rw [Ambassador.length_alterSession]; exact h.known) rfl
    rw [Ambassador.session_alterSession _ h.known]
    exact CallbackQueue.items_push ..
  | begin thread new => exact still (leaves_self _) rfl (h.row rfl nofun)
  | takes known stage next first => exact h.takes known stage next first
  | @deliver k d known leaves =>
    have home := h.home k d known
    subst home
    refine h.keeps (leaves_step h.known leaves) (d.standing_event _) (h.row ?_ ?_)
    · exact (d.step_keeps _).1
    · intro item taken ordinary
      rw [stop_of_step leaves taken] at ordinary
      cases ordinary
  | @returns k d known x =>
    refine still (leaves_self _) rfl (h.row ?_ fun item taken _ => ?_)
    · rw [d.session_returned, h.home k d known]
    · unfold Delivery.returned at taken ⊢
      split at taken
      · cases taken
      · exact known
  | @verdict k d known =>
    refine still (leaves_self _) rfl (h.row ?_ fun item taken _ => ?_)
    · rw [d.session_heard, h.home k d known]
    · unfold Delivery.heard at taken ⊢
      split at taken
      · cases taken
      · exact known
  | moves x =>
    exact h.keeps (x := some x) ⟨rfl, id⟩ rfl fun k d hd => ⟨h.home k d hd, fun _ _ _ => hd⟩
  | aside a leaves standing =>
    exact still leaves standing fun k d hd => ⟨h.home k d hd, fun _ _ _ => hd⟩

end Traced

theorem traced_fresh {a : Ambassador} {past : List Event} (known : i < a.sessions.length)
    (new : (a.session i).queue = .fresh) (standing : a.standing = Event.stand past) :
    Traced i (fresh a past) where
  known := known
  home _ _ hd := by cases hd
  items := by rw [queue, fresh, new]; rfl
  pushed _ hx := by cases hx
  arrived _ _ _ hd := by cases hd
  standing := standing

theorem Reachable.traced (h : Reachable i t) : Traced i t := by
  obtain ⟨a, past, known, new, standing, hs⟩ := h
  induction hs with
  | refl => exact traced_fresh known new standing
  | tail _ hs ih => exact ih.step hs

/-- **The family in which a callback is read**: that of the standing when the callback was pushed,
unless the standing has come to another since; then that which it came to last. -/
theorem Reachable.decoded {n : UInt32} {e : Envelope} (h : Reachable i t)
    (known : t.deliveries k = some d) (stage : d.stage = .taken (.request n e)) :
    ∃ past since, t.arrival k = some past ∧ t.history = past ++ since ∧
      (d.step t.ambassador).1.stage = Delivery.examine
        (Standing.settled (Event.stand past).family (since.map Event.move)) (.request n e) ∧
      ((∀ x ∈ since, x.move.family? = none) →
        (d.step t.ambassador).1.stage =
          Delivery.examine (Event.stand past).family (.request n e)) := by
  obtain ⟨past, arrival, since, history⟩ := h.traced.arrived k d _ known stage rfl
  have family : t.ambassador.standing.family =
      Standing.settled (Event.stand past).family (since.map Event.move) := by
    rw [h.traced.standing, ← history, Event.stand_append, Standing.family_run]
  have read : (d.step t.ambassador).1.stage =
      Delivery.examine t.ambassador.standing.family (.request n e) := by
    simp only [Delivery.step, stage]
    rfl
  refine ⟨past, since, arrival, history.symm, by rw [read, family], fun quiet => ?_⟩
  rw [read, family, Standing.settled_of_none (by simpa using quiet)]

/-! ## A grant that is read in time, and one that is not -/

/-- A client that has joined a federation with discrete times. -/
def member : Ambassador :=
  { Ambassador.fresh .standard with
    standing := Standing.fresh.join .discrete
    sessions := [.fresh ⟨none, none, .zero, none, ""⟩ .zero] }

/-- The grant of an advance, to the time 5 if times are discrete. -/
def grant : Envelope := ⟨82, [0, 0, 0, 0, 0, 0, 0, 5]⟩

/-- The federate asks for something else while the grant waits, and the grant is read as a discrete
time. -/
theorem decoded_in_time : ∃ t d past, Reachable 0 t ∧ t.deliveries 0 = some d ∧
    t.arrival 0 = some past ∧ (Event.stand past).family = some .discrete ∧
    (d.step t.ambassador).1.stage = Delivery.examine (some .discrete) (.request 5 grant) := by
  have arrived := Relation.ReflTransGen.single (Step.push (i := 0)
    (t := fresh member [.connects 0, .notes 0 .discrete]) (.request 5 grant) rfl)
  have asked := arrived.tail
    (.moves (.accepts 0 (.known .enableTimeRegulation) false))
  have begun := asked.tail (.begin (k := 0) .application rfl)
  have taken := begun.tail (.takes (k := 0) rfl rfl rfl rfl)
  have reached : Reachable 0 _ := ⟨member, _, by decide, rfl, rfl, taken⟩
  obtain ⟨past, since, arrival, history, -, quiet⟩ := Reachable.decoded (k := 0) reached rfl rfl
  obtain rfl : [.connects 0, .notes 0 .discrete] = past := Option.some.inj arrival
  obtain rfl : [.accepts 0 (.known .enableTimeRegulation) false] = since :=
    List.append_cancel_left history
  exact ⟨_, _, _, reached, rfl, rfl, rfl, quiet (by simp [Event.move, Standing.Move.family?])⟩

/-- The federate resigns while a grant waits, and joins a federation with continuous times: the
grant is read as one of these. -/
theorem grant_in_other_family : ∃ t d past c c', Reachable 0 t ∧ t.deliveries 0 = some d ∧
    d.stage = .taken (.request 5 grant) ∧ t.arrival 0 = some past ∧
    (Event.stand past).family = some .discrete ∧
    Callback.decode grant (some .discrete) = .ok c ∧
    (d.step t.ambassador).1.stage = .observing (some 5) c' ∧ c' ≠ c := by
  have arrived := Relation.ReflTransGen.single (Step.push (i := 0)
    (t := fresh member [.connects 0, .notes 0 .discrete]) (.request 5 grant) rfl)
  have resigned := arrived.tail (.moves (.confirms 0 (.known .resignFederationExecution)))
  have joined := resigned.tail (.moves (.notes 0 .continuous))
  have begun := joined.tail (.begin (k := 0) .application rfl)
  have taken := begun.tail (.takes (k := 0) rfl rfl rfl rfl)
  have reached : Reachable 0 _ := ⟨member, _, by decide, rfl, rfl, taken⟩
  exact ⟨_, _, _, _, _, reached, rfl, rfl, rfl, rfl, rfl, rfl, by decide⟩

end Decoding

end Federate
