/-
The deliveries for a session whose queue may be stopped, and the holds on its
callbacks: any number of either, on any threads, each with its next step at any
time. Between their steps callbacks and the notice arrive, the queue is stopped,
delivery is enabled and held back, handlers end, the link speaks, and everything
else goes on, as long as it leaves the queue and the mark of the callback thread
alone.

Beside it all, an observer notes what each delivery was handed, after which
holds delivery has been enabled again, and whether somebody who was handed the
marker has told the queue that an item is done while one was out. No step looks
at these notes.
-/
import Mathlib.Logic.Relation
import Federate.Ambassador.Hold
import Federate.Proofs.Delivery.Course
import Federate.Proofs.Rows
namespace Federate

open Function (update)

/-- The deliveries for a session and the holds on its callbacks. -/
structure Evoking where
  ambassador : Ambassador
  deliveries : Nat → Option Delivery
  holds : Nat → Option Hold
  /-- What each delivery was handed. -/
  handed : Nat → Option CallbackQueue.Item
  /-- Delivery has been enabled since the hold. -/
  lifted : Nat → Bool
  /-- A marker was finished while an item was out. -/
  overrun : Prop

namespace Evoking

/-- Before anything has been pushed. -/
def fresh (a : Ambassador) : Evoking where
  ambassador := a
  deliveries _ := none
  holds _ := none
  handed _ := none
  lifted _ := false
  overrun := False

def queue (t : Evoking) (i : Nat) : CallbackQueue := (t.ambassador.session i).queue

def setDelivery (t : Evoking) (k : Nat) (d : Delivery) : Evoking :=
  { t with deliveries := update t.deliveries k (some d) }

def setHold (t : Evoking) (j : Nat) (h : Hold) : Evoking :=
  { t with holds := update t.holds j (some h) }

/-- The delivery has a callback or the notice, and has not told the queue that it is done. -/
def Out (t : Evoking) (k : Nat) : Prop :=
  ∃ d item, t.deliveries k = some d ∧ t.handed k = some item ∧ item.isStop = false ∧
    d.stage.out = true

/-- The delivery was handed a marker, and an item is out. -/
def Overruns (t : Evoking) (k : Nat) : Prop := t.handed k = some .stop ∧ ∃ j, t.Out j

/-- What the observer notes about the next step of a delivery. -/
def noteStep (t : Evoking) (i k : Nat) (d : Delivery) : Evoking :=
  match d.stage with
  | .taking => { t with handed := update t.handed k (t.queue i).next.1 }
  | .finishing => { t with overrun := t.overrun ∨ t.Overruns k }
  | _ => t

/-- What the observer notes about the next step of a hold. -/
def noteHold (t : Evoking) (j : Nat) (h : Hold) : Evoking :=
  match h.stage with
  | .closing => { t with lifted := update t.lifted j false }
  | _ => t

/-- What other doings leave as it is. -/
structure Leaves (i : Nat) (a a' : Ambassador) : Prop where
  queue : (a'.session i).queue = (a.session i).queue
  handling : a'.handling = a.handling
  known : i < a.sessions.length → i < a'.sessions.length

/-- A step of the deliveries for a session, or of the holds on its callbacks. -/
inductive Step (i : Nat) (t : Evoking) : Evoking → Prop where
  /-- A callback arrives, or the notice that the session is lost. -/
  | push (item : CallbackQueue.Item) (ordinary : item.isStop = false) :
    Step i t { t with ambassador := t.ambassador.alterSession i (·.onQueue (·.push item)) }
  | stop : Step i t { t with ambassador := t.ambassador.alterSession i (·.onQueue (·.stop)) }
  | enable :
    Step i t { t with
      ambassador := t.ambassador.alterSession i (·.onQueue (·.setEnabled true))
      lifted := fun _ => true }
  | begin {k : Nat} (thread : Thread) (new : t.deliveries k = none) :
    Step i t (t.setDelivery k (.fresh i thread))
  | deliver {k : Nat} {d : Delivery} (known : t.deliveries k = some d) :
    Step i t ({ t.noteStep i k d with ambassador := (d.step t.ambassador).2 }.setDelivery k
      (d.step t.ambassador).1)
  | returns {k : Nat} {d : Delivery} (known : t.deliveries k = some d) (h : Handling) :
    Step i t (t.setDelivery k (d.returned h))
  | verdict {k : Nat} {d : Delivery} (known : t.deliveries k = some d) :
    Step i t (t.setDelivery k d.heard)
  | beginHold {j : Nat} (thread : Thread) (new : t.holds j = none) :
    Step i t (t.setHold j (.fresh i thread))
  | hold {j : Nat} {h : Hold} (known : t.holds j = some h) :
    Step i t ({ t.noteHold j h with ambassador := (h.step t.ambassador).2 }.setHold j
      (h.step t.ambassador).1)
  /-- Anything else. -/
  | aside (a : Ambassador) (leaves : Leaves i t.ambassador a) :
    Step i t { t with ambassador := a }

/-- The deliveries and holds for a session that has begun, while no handler runs. -/
def Reachable (i : Nat) (t : Evoking) : Prop :=
  ∃ a : Ambassador, i < a.sessions.length ∧ (a.session i).queue = .fresh ∧ a.handling = none ∧
    Relation.ReflTransGen (Step i) (fresh a) t

/-! ## What a step changes -/

variable {i : Nat} {t t' : Evoking}

/-- The session has a queue, and a thread the mark, after a step. -/
structure Has (i : Nat) (q : CallbackQueue) (mark : Option Thread) (a : Ambassador) : Prop where
  queue : (a.session i).queue = q
  handling : a.handling = mark
  known : i < a.sessions.length

/-- What has to be known of a delivery at a stage: what it was handed. -/
def Fits (thread : Thread) (handed : Option CallbackQueue.Item) : Delivery.Stage → Prop
  | .taking => handed = none
  | .taken item => handed = some item ∧ (item.isStop = true → thread ≠ .dispatcher)
  | .finishing => ∃ item, handed = some item ∧ (item.isStop = true → thread ≠ .dispatcher)
  | .ended _ => True
  | _ => ∃ item, handed = some item ∧ item.isStop = false

end Evoking

/-- The handler has the thread, or has ended and not given it back. -/
def Delivery.Stage.attended : Delivery.Stage → Bool
  | .handling _ _ | .leaving _ _ => true
  | _ => false

namespace Evoking

variable {i : Nat} {t t' : Evoking}

/-- What one step changes. -/
inductive Change (i : Nat) (t : Evoking) : Evoking → Prop where
  | stays : Change i t t
  | aside (a : Ambassador) (has : Has i (t.queue i) t.ambassador.handling a) :
    Change i t { t with ambassador := a }
  | arrives (a : Ambassador) (item : CallbackQueue.Item) (ordinary : item.isStop = false)
    (has : Has i ((t.queue i).push item) t.ambassador.handling a) :
    Change i t { t with ambassador := a }
  | stops (a : Ambassador) (has : Has i (t.queue i).stop t.ambassador.handling a) :
    Change i t { t with ambassador := a }
  | enables (a : Ambassador) (has : Has i ((t.queue i).setEnabled true) t.ambassador.handling a) :
    Change i t { t with ambassador := a, lifted := fun _ => true }
  -- A delivery, from its beginning to its end.
  | begins {k : Nat} (thread : Thread) (new : t.deliveries k = none) :
    Change i t (t.setDelivery k (.fresh i thread))
  | takes {k : Nat} {d : Delivery} {item : CallbackQueue.Item} {q : CallbackQueue}
    (a : Ambassador) (known : t.deliveries k = some d) (stage : d.stage = .taking)
    (next : (t.queue i).next = (some item, q)) (has : Has i q t.ambassador.handling a) :
    Change i t ({ t with ambassador := a, handed := update t.handed k (some item) }.setDelivery k
      (d.goTo (d.receive item)))
  | findsNone {k : Nat} {d : Delivery} {q : CallbackQueue} (a : Ambassador)
    (known : t.deliveries k = some d) (stage : d.stage = .taking)
    (next : (t.queue i).next = (none, q)) (has : Has i q t.ambassador.handling a) :
    Change i t ({ t with ambassador := a, handed := update t.handed k none }.setDelivery k
      (d.goTo (.ended false)))
  /-- A delivery that has an item goes on with it. -/
  | goes {k : Nat} {d : Delivery} {s : Delivery.Stage} (a : Ambassador)
    (known : t.deliveries k = some d) (before : d.stage.out = true) (after : s.out = true)
    (attended : s.attended = d.stage.attended)
    (fits : Fits d.thread (t.handed k) d.stage → Fits d.thread (t.handed k) s)
    (has : Has i (t.queue i) t.ambassador.handling a) :
    Change i t ({ t with ambassador := a }.setDelivery k (d.goTo s))
  | calls {k : Nat} {d : Delivery} {n : Option UInt32} {c : Callback} (a : Ambassador)
    (known : t.deliveries k = some d) (stage : d.stage = .entering n c)
    (has : Has i (t.queue i) (some d.thread) a) :
    Change i t ({ t with ambassador := a }.setDelivery k (d.goTo (.handling n c)))
  | leaves {k : Nat} {d : Delivery} {n : Option UInt32} {h : Handling} (a : Ambassador)
    (known : t.deliveries k = some d) (stage : d.stage = .leaving n h)
    (has : Has i (t.queue i) none a) :
    Change i t ({ t with ambassador := a }.setDelivery k (d.goTo (.counting n h.fault?)))
  | finishes {k : Nat} {d : Delivery} (a : Ambassador) (known : t.deliveries k = some d)
    (stage : d.stage = .finishing) (has : Has i (t.queue i).done t.ambassador.handling a) :
    Change i t ({ t with ambassador := a, overrun := t.overrun ∨ t.Overruns k }.setDelivery k
      (d.goTo (.ended true)))
  -- A hold, from its beginning to its end.
  | holdBegins {j : Nat} (thread : Thread) (new : t.holds j = none) :
    Change i t (t.setHold j (.fresh i thread))
  | closes {j : Nat} {h : Hold} (a : Ambassador) (known : t.holds j = some h)
    (stage : h.stage = .closing)
    (has : Has i ((t.queue i).setEnabled false) t.ambassador.handling a) :
    Change i t ({ t with ambassador := a, lifted := update t.lifted j false }.setHold j
      (h.goTo .looking))
  | looks {j : Nat} {h : Hold} {s : Hold.Stage} (known : t.holds j = some h)
    (stage : h.stage = .looking) (next : s = .within ∨ s = .waiting) :
    Change i t (t.setHold j (h.goTo s))
  | quiets {j : Nat} {h : Hold} (known : t.holds j = some h) (stage : h.stage = .waiting)
    (idle : (t.queue i).inProgress = false) : Change i t (t.setHold j (h.goTo .quiet))

theorem setDelivery_self {k : Nat} {d : Delivery} (known : t.deliveries k = some d) :
    t.setDelivery k d = t := by
  have : update t.deliveries k (some d) = t.deliveries := by rw [← known, Function.update_eq_self]
  rw [setDelivery, this]

theorem setHold_self {j : Nat} {h : Hold} (known : t.holds j = some h) : t.setHold j h = t := by
  have : update t.holds j (some h) = t.holds := by rw [← known, Function.update_eq_self]
  rw [setHold, this]

theorem has_alterSession (known : i < t.ambassador.sessions.length) {f : Session → Session}
    {q : CallbackQueue} (queue : (f (t.ambassador.session i)).queue = q) :
    Has i q t.ambassador.handling (t.ambassador.alterSession i f) where
  queue := by rw [Ambassador.session_alterSession f known, queue]
  handling := rfl
  known := by rwa [Ambassador.length_alterSession]

theorem has_self (known : i < t.ambassador.sessions.length) :
    Has i (t.queue i) t.ambassador.handling t.ambassador := ⟨rfl, rfl, known⟩

/-- An item that is no marker may be finished on any thread. -/
theorem fits_finishing {thread : Thread} {handed : Option CallbackQueue.Item}
    (h : ∃ item, handed = some item ∧ item.isStop = false) : Fits thread handed .finishing := by
  obtain ⟨item, hitem, ordinary⟩ := h
  exact ⟨item, hitem, fun hs => by rw [ordinary] at hs; cases hs⟩

/-- Reading a marker leads to the end of the delivery, and anything else to an item. -/
theorem fits_examine {thread : Thread} {handed : Option CallbackQueue.Item}
    {item : CallbackQueue.Item} (family : Option TimeFamily)
    (fits : Fits thread handed (.taken item)) :
    Fits thread handed (Delivery.examine family item) := by
  obtain ⟨hitem, notDispatcher⟩ := fits
  cases item with
  | stop => exact ⟨_, hitem, notDispatcher⟩
  | lost reason => exact ⟨_, hitem, rfl⟩
  | request n e =>
    simp only [Delivery.examine]
    split <;> exact ⟨_, hitem, rfl⟩

theorem out_examine (family : Option TimeFamily) (item : CallbackQueue.Item) :
    (Delivery.examine family item).out = true ∧
      (Delivery.examine family item).attended = false := by
  cases item with
  | request n e =>
    simp only [Delivery.examine]
    split <;> exact ⟨rfl, rfl⟩
  | _ => exact ⟨rfl, rfl⟩

theorem change_deliver {k : Nat} {d : Delivery} (hi : i < t.ambassador.sessions.length)
    (known : t.deliveries k = some d) (home : d.session = i) :
    Change i t ({ t.noteStep i k d with ambassador := (d.step t.ambassador).2 }.setDelivery k
      (d.step t.ambassador).1) := by
  subst home
  cases hs : d.stage with
  | taking =>
    cases hn : (t.queue d.session).next with
    | mk found q =>
      have hn' : (t.ambassador.session d.session).queue.next = (found, q) := hn
      have hhas := has_alterSession hi (f := fun s => s.onQueue (·.next.2)) (congrArg Prod.snd hn)
      cases found with
      | some item =>
        simpa only [noteStep, Delivery.step, hs, Ambassador.onSession, hn, hn'] using
          .takes _ known hs hn hhas
      | none =>
        simpa only [noteStep, Delivery.step, hs, Ambassador.onSession, hn, hn'] using
          .findsNone _ known hs hn hhas
  | taken item =>
    obtain ⟨out, attended⟩ := out_examine t.ambassador.standing.family item
    simpa only [noteStep, Delivery.step, hs] using
      .goes _ known (by rw [hs]; rfl) out (by rw [hs, attended]; rfl)
        (by rw [hs]; exact fits_examine _) (has_self hi)
  | observing n c =>
    simpa only [noteStep, Delivery.step, hs] using
      .goes _ known (by rw [hs]; rfl) rfl (by rw [hs]; rfl) (by rw [hs]; exact id)
        ⟨rfl, rfl, hi⟩
  | entering n c =>
    simpa only [noteStep, Delivery.step, hs] using .calls _ known hs ⟨rfl, rfl, hi⟩
  | handling n c =>
    simpa only [noteStep, Delivery.step, hs, setDelivery_self known] using .stays
  | leaving n h =>
    simpa only [noteStep, Delivery.step, hs] using .leaves _ known hs ⟨rfl, rfl, hi⟩
  | counting n fault =>
    simpa only [noteStep, Delivery.step, hs] using
      .goes _ known (by rw [hs]; rfl) rfl (by rw [hs]; rfl) (by rw [hs]; exact id)
        (has_alterSession hi rfl)
  | answering n fault =>
    cases n with
    | none =>
      simpa only [noteStep, Delivery.step, hs] using
        .goes _ known (by rw [hs]; rfl) rfl (by rw [hs]; rfl) (by rw [hs]; exact fits_finishing)
          (has_self hi)
    | some n =>
      cases hl : (t.ambassador.session d.session).lost with
      | true =>
        simpa only [noteStep, Delivery.step, hs, hl, if_true] using
          .goes _ known (by rw [hs]; rfl) rfl (by rw [hs]; rfl) (by rw [hs]; exact fits_finishing)
            (has_self hi)
      | false =>
        simpa only [noteStep, Delivery.step, hs, hl, Bool.false_eq_true, if_false] using
          .goes _ known (by rw [hs]; rfl) rfl (by rw [hs]; rfl) (by rw [hs]; exact id)
            (has_alterSession hi rfl)
  | offered packet =>
    simpa only [noteStep, Delivery.step, hs, setDelivery_self known] using .stays
  | finishing =>
    simpa only [noteStep, Delivery.step, hs] using
      .finishes _ known hs (has_alterSession hi rfl)
  | ended b => simpa only [noteStep, Delivery.step, hs, setDelivery_self known] using .stays

theorem change_hold {j : Nat} {h : Hold} (hi : i < t.ambassador.sessions.length)
    (known : t.holds j = some h) (home : h.session = i) :
    Change i t ({ t.noteHold j h with ambassador := (h.step t.ambassador).2 }.setHold j
      (h.step t.ambassador).1) := by
  subst home
  cases hs : h.stage with
  | closing =>
    simpa only [noteHold, Hold.step, hs] using .closes _ known hs (has_alterSession hi rfl)
  | looking =>
    simp only [noteHold, Hold.step, hs]
    refine .looks known hs ?_
    split
    · exact .inl rfl
    · exact .inr rfl
  | waiting =>
    cases hq : (t.ambassador.session h.session).queue.inProgress with
    | true =>
      simpa only [noteHold, Hold.step, hs, hq, if_true, setHold_self known] using .stays
    | false =>
      simpa only [noteHold, Hold.step, hs, hq, Bool.false_eq_true, if_false] using
        .quiets known hs hq
  | quiet => simpa only [noteHold, Hold.step, hs, setHold_self known] using .stays
  | within => simpa only [noteHold, Hold.step, hs, setHold_self known] using .stays

/-- **What one step changes**, as long as the session is there, and its deliveries and holds are its
own. -/
theorem Step.change (hi : i < t.ambassador.sessions.length)
    (home : ∀ k d, t.deliveries k = some d → d.session = i)
    (homeHold : ∀ j h, t.holds j = some h → h.session = i) (hs : Step i t t') : Change i t t' := by
  cases hs with
  | push item ordinary => exact .arrives _ item ordinary (has_alterSession hi rfl)
  | stop => exact .stops _ (has_alterSession hi rfl)
  | enable => exact .enables _ (has_alterSession hi rfl)
  | begin thread new => exact .begins thread new
  | deliver known => exact change_deliver hi known (home _ _ known)
  | @returns k d known h =>
    cases hs : d.stage with
    | handling n c =>
      simpa only [Delivery.returned, hs] using
        .goes t.ambassador known (by rw [hs]; rfl) rfl (by rw [hs]; rfl) (by rw [hs]; exact id)
          (has_self hi)
    | _ => simpa only [Delivery.returned, hs, setDelivery_self known] using .stays
  | @verdict k d known =>
    cases hs : d.stage with
    | offered packet =>
      simpa only [Delivery.heard, hs] using
        .goes t.ambassador known (by rw [hs]; rfl) rfl (by rw [hs]; rfl)
          (by rw [hs]; exact fits_finishing) (has_self hi)
    | _ => simpa only [Delivery.heard, hs, setDelivery_self known] using .stays
  | beginHold thread new => exact .holdBegins thread new
  | hold known => exact change_hold hi known (homeHold _ _ known)
  | aside a leaves => exact .aside a ⟨leaves.queue, leaves.handling, leaves.known hi⟩

end Evoking

end Federate
