/-
The deliveries for one session: any number of them, begun by the dispatcher or
evoked on any thread at any time, each with its next step at any time. Between
their steps callbacks arrive, delivery is enabled and held back, handlers end as
they please, the link speaks, and everything else goes on, as long as it leaves
the queue alone. Evoking several callbacks is one delivery after another, and so
is the dispatcher's work; whoever evokes from within a handler is covered too.

Beside it all, an observer notes which delivery got which item, what it did, and
which answers the link accepted; no step looks at these notes.
-/
import Mathlib.Logic.Relation
import Federate.Proofs.Delivery.Course
import Federate.Proofs.Rows
namespace Federate

open Function (update)

/-- The deliveries for a session. -/
structure Dispatching where
  ambassador : Ambassador
  deliveries : Nat → Option Delivery
  /-- Every item that was pushed, first to last. -/
  pushed : List CallbackQueue.Item
  /-- Every item that was handed to a delivery, first to last, and to which. -/
  handed : List (Nat × CallbackQueue.Item)
  deeds : Nat → List Delivery.Deed
  /-- The answers that the link accepted, first to last. -/
  answers : List Bytes
  /-- The link has refused an answer. -/
  refused : Bool

namespace Dispatching

/-- Before anything has been pushed. -/
def fresh (a : Ambassador) : Dispatching where
  ambassador := a
  deliveries _ := none
  pushed := []
  handed := []
  deeds _ := []
  answers := []
  refused := false

def queue (t : Dispatching) (i : Nat) : CallbackQueue := (t.ambassador.session i).queue

def setDelivery (t : Dispatching) (k : Nat) (d : Delivery) : Dispatching :=
  { t with deliveries := update t.deliveries k (some d) }

/-- A delivery does something. -/
def does (t : Dispatching) (k : Nat) (x : Delivery.Deed) : Dispatching :=
  { t with deeds := update t.deeds k (t.deeds k ++ [x]) }

/-- What the observer notes about the next step of a delivery. -/
def noteStep (t : Dispatching) (k : Nat) (d : Delivery) : Dispatching :=
  match d.stage with
  | .taking =>
    match (t.queue d.session).next.1 with
    | some item => { t with handed := t.handed ++ [(k, item)] }
    | none => t
  | .taken _ => t.does k (.read t.ambassador.standing.family)
  | .observing _ c => t.does k (.observed c)
  | .entering _ c => t.does k (.called c)
  | _ => t

/-- What the observer notes about the end of a handler. -/
def noteReturn (t : Dispatching) (k : Nat) (d : Delivery) (h : Handling) : Dispatching :=
  match d.stage with
  | .handling _ _ => t.does k (.returned h)
  | _ => t

/-- What the observer notes about a verdict of the link. -/
def noteVerdict (t : Dispatching) (k : Nat) (d : Delivery) (accepted : Bool) : Dispatching :=
  match d.stage with
  | .offered packet =>
    { t.does k (.answered packet accepted) with
      answers := if accepted then t.answers ++ [packet] else t.answers
      refused := t.refused || !accepted }
  | _ => t

/-- What nothing but arrivals, deliveries and holding them back does to a session: its queue is
another. A session that is lost stays lost. -/
structure Turns (i : Nat) (q : CallbackQueue) (a a' : Ambassador) : Prop where
  queue : (a'.session i).queue = q
  lost : (a.session i).lost = true → (a'.session i).lost = true
  known : i < a.sessions.length → i < a'.sessions.length

/-- A step of the deliveries for a session. -/
inductive Step (i : Nat) (t : Dispatching) : Dispatching → Prop where
  /-- A callback arrives, or the notice that the session is lost. -/
  | push (item : CallbackQueue.Item) (ordinary : item.isStop = false) :
    Step i t { t with
      ambassador := t.ambassador.alterSession i (·.onQueue (·.push item))
      pushed := t.pushed ++ [item] }
  | setEnabled (b : Bool) :
    Step i t { t with
      ambassador := t.ambassador.alterSession i (·.onQueue (·.setEnabled b)) }
  | begin {k : Nat} (thread : Thread) (new : t.deliveries k = none) :
    Step i t (t.setDelivery k (.fresh i thread))
  | deliver {k : Nat} {d : Delivery} (known : t.deliveries k = some d) :
    Step i t ({ t.noteStep k d with ambassador := (d.step t.ambassador).2 }.setDelivery k
      (d.step t.ambassador).1)
  | returns {k : Nat} {d : Delivery} (known : t.deliveries k = some d) (h : Handling) :
    Step i t ((t.noteReturn k d h).setDelivery k (d.returned h))
  | verdict {k : Nat} {d : Delivery} (known : t.deliveries k = some d) (accepted : Bool) :
    Step i t ((t.noteVerdict k d accepted).setDelivery k d.heard)
  /-- Anything else. -/
  | aside (a : Ambassador) (turns : Turns i (t.queue i) t.ambassador a) :
    Step i t { t with ambassador := a }

/-- The deliveries for a session that has begun, until its queue is stopped. -/
def Reachable (i : Nat) (t : Dispatching) : Prop :=
  ∃ a : Ambassador, i < a.sessions.length ∧ (a.session i).queue = .fresh ∧
    Relation.ReflTransGen (Step i) (fresh a) t

/-! ## What a step changes -/

variable {i : Nat} {t t' : Dispatching}

/-- What one step changes. -/
inductive Change (i : Nat) (t : Dispatching) : Dispatching → Prop where
  | stays : Change i t t
  | aside (a : Ambassador) (turns : Turns i (t.queue i) t.ambassador a) :
    Change i t { t with ambassador := a }
  | arrives (a : Ambassador) (item : CallbackQueue.Item) (ordinary : item.isStop = false)
    (turns : Turns i ((t.queue i).push item) t.ambassador a) :
    Change i t { t with ambassador := a, pushed := t.pushed ++ [item] }
  | enables (a : Ambassador) (b : Bool)
    (turns : Turns i ((t.queue i).setEnabled b) t.ambassador a) :
    Change i t { t with ambassador := a }
  | begins {k : Nat} (thread : Thread) (new : t.deliveries k = none) :
    Change i t (t.setDelivery k (.fresh i thread))
  -- A delivery, from its beginning to its end.
  | takes {k : Nat} {d : Delivery} {item : CallbackQueue.Item} {q : CallbackQueue}
    (a : Ambassador) (known : t.deliveries k = some d) (stage : d.stage = .taking)
    (next : (t.queue i).next = (some item, q)) (turns : Turns i q t.ambassador a) :
    Change i t ({ t with ambassador := a, handed := t.handed ++ [(k, item)] }.setDelivery k
      (d.goTo (d.receive item)))
  | findsNone {k : Nat} {d : Delivery} (a : Ambassador) (known : t.deliveries k = some d)
    (stage : d.stage = .taking) (turns : Turns i (t.queue i).next.2 t.ambassador a)
    (next : (t.queue i).next.1 = none) :
    Change i t ({ t with ambassador := a }.setDelivery k (d.goTo (.ended false)))
  | reads {k : Nat} {d : Delivery} {item : CallbackQueue.Item} (known : t.deliveries k = some d)
    (stage : d.stage = .taken item) :
    Change i t ((t.does k (.read t.ambassador.standing.family)).setDelivery k
      (d.goTo (Delivery.examine t.ambassador.standing.family item)))
  | observes {k : Nat} {d : Delivery} {n : Option UInt32} {c : Callback} (a : Ambassador)
    (known : t.deliveries k = some d) (stage : d.stage = .observing n c)
    (turns : Turns i (t.queue i) t.ambassador a) :
    Change i t ({ t.does k (.observed c) with ambassador := a }.setDelivery k
      (d.goTo (.entering n c)))
  | calls {k : Nat} {d : Delivery} {n : Option UInt32} {c : Callback} (a : Ambassador)
    (known : t.deliveries k = some d) (stage : d.stage = .entering n c)
    (turns : Turns i (t.queue i) t.ambassador a) :
    Change i t ({ t.does k (.called c) with ambassador := a }.setDelivery k
      (d.goTo (.handling n c)))
  | returns {k : Nat} {d : Delivery} {n : Option UInt32} {c : Callback}
    (known : t.deliveries k = some d) (stage : d.stage = .handling n c) (h : Handling) :
    Change i t ((t.does k (.returned h)).setDelivery k (d.goTo (.leaving n h)))
  | leaves {k : Nat} {d : Delivery} {n : Option UInt32} {h : Handling} (a : Ambassador)
    (known : t.deliveries k = some d) (stage : d.stage = .leaving n h)
    (turns : Turns i (t.queue i) t.ambassador a) :
    Change i t ({ t with ambassador := a }.setDelivery k (d.goTo (.counting n h.fault?)))
  | counts {k : Nat} {d : Delivery} {n : Option UInt32} {fault : Option Fault} (a : Ambassador)
    (known : t.deliveries k = some d) (stage : d.stage = .counting n fault)
    (turns : Turns i (t.queue i) t.ambassador a) :
    Change i t ({ t with ambassador := a }.setDelivery k (d.goTo (.answering n fault)))
  | passes {k : Nat} {d : Delivery} {fault : Option Fault} (known : t.deliveries k = some d)
    (stage : d.stage = .answering none fault) :
    Change i t (t.setDelivery k (d.goTo .finishing))
  | givesUp {k : Nat} {d : Delivery} {n : UInt32} {fault : Option Fault}
    (known : t.deliveries k = some d) (stage : d.stage = .answering (some n) fault)
    (lost : (t.ambassador.session i).lost = true) :
    Change i t (t.setDelivery k (d.goTo .finishing))
  | offers {k : Nat} {d : Delivery} {n : UInt32} {fault : Option Fault} {packet : Bytes}
    (a : Ambassador) (known : t.deliveries k = some d)
    (stage : d.stage = .answering (some n) fault) (answers : Delivery.Answers packet n fault)
    (turns : Turns i (t.queue i) t.ambassador a) :
    Change i t ({ t with ambassador := a }.setDelivery k (d.goTo (.offered packet)))
  | hears {k : Nat} {d : Delivery} {packet : Bytes} (known : t.deliveries k = some d)
    (stage : d.stage = .offered packet) (accepted : Bool) :
    Change i t ({ t.does k (.answered packet accepted) with
      answers := if accepted then t.answers ++ [packet] else t.answers
      refused := t.refused || !accepted }.setDelivery k (d.goTo .finishing))
  | finishes {k : Nat} {d : Delivery} (a : Ambassador) (known : t.deliveries k = some d)
    (stage : d.stage = .finishing) (turns : Turns i (t.queue i).done t.ambassador a) :
    Change i t ({ t with ambassador := a }.setDelivery k (d.goTo (.ended true)))

theorem setDelivery_self {k : Nat} {d : Delivery} (known : t.deliveries k = some d) :
    t.setDelivery k d = t := by
  have : update t.deliveries k (some d) = t.deliveries := by rw [← known, Function.update_eq_self]
  rw [setDelivery, this]

/-- A step on the session turns its queue into what the step makes of it. -/
theorem turns_alterSession (known : i < t.ambassador.sessions.length) {f : Session → Session}
    {q : CallbackQueue} (queue : (f (t.ambassador.session i)).queue = q)
    (lost : (f (t.ambassador.session i)).lost = (t.ambassador.session i).lost) :
    Turns i q t.ambassador (t.ambassador.alterSession i f) where
  queue := by rw [Ambassador.session_alterSession f known, queue]
  lost h := by rw [Ambassador.session_alterSession f known, lost, h]
  known h := by rwa [Ambassador.length_alterSession]

/-- A step that leaves the sessions alone. -/
theorem turns_of_sessions {a : Ambassador} (h : a.sessions = t.ambassador.sessions) :
    Turns i (t.queue i) t.ambassador a := by
  have hs : a.session i = t.ambassador.session i := by
    rw [Ambassador.session, Ambassador.session, h]
  exact ⟨by rw [hs, queue], fun hl => by rw [hs, hl], fun hi => by rwa [h]⟩

theorem change_deliver {k : Nat} {d : Delivery} (hi : i < t.ambassador.sessions.length)
    (known : t.deliveries k = some d) (home : d.session = i) :
    Change i t ({ t.noteStep k d with ambassador := (d.step t.ambassador).2 }.setDelivery k
      (d.step t.ambassador).1) := by
  subst home
  cases hs : d.stage with
  | taking =>
    cases hn : (t.queue d.session).next with
    | mk found q =>
      have hn' : (t.ambassador.session d.session).queue.next = (found, q) := hn
      have hturns := turns_alterSession hi (f := fun s => s.onQueue (·.next.2))
        (congrArg Prod.snd hn) rfl
      cases found with
      | some item =>
        simpa only [noteStep, Delivery.step, hs, Ambassador.onSession, hn, hn'] using
          .takes _ known hs hn hturns
      | none =>
        simpa only [noteStep, Delivery.step, hs, Ambassador.onSession, hn, hn'] using
          .findsNone _ known hs (by rwa [hn]) (by rw [hn])
  | taken item => simpa only [noteStep, Delivery.step, hs] using .reads known hs
  | observing n c =>
    simpa only [noteStep, Delivery.step, hs] using .observes _ known hs (turns_of_sessions rfl)
  | entering n c =>
    simpa only [noteStep, Delivery.step, hs] using .calls _ known hs (turns_of_sessions rfl)
  | handling n c =>
    simpa only [noteStep, Delivery.step, hs, setDelivery_self known] using .stays
  | leaving n h =>
    simpa only [noteStep, Delivery.step, hs] using .leaves _ known hs (turns_of_sessions rfl)
  | counting n fault =>
    simpa only [noteStep, Delivery.step, hs] using
      .counts _ known hs (turns_alterSession hi rfl rfl)
  | answering n fault =>
    cases n with
    | none => simpa only [noteStep, Delivery.step, hs] using .passes known hs
    | some n =>
      cases hl : (t.ambassador.session d.session).lost with
      | true =>
        simpa only [noteStep, Delivery.step, hs, hl, if_true] using .givesUp known hs hl
      | false =>
        simpa only [noteStep, Delivery.step, hs, hl, Bool.false_eq_true, if_false] using
          .offers _ known hs (Delivery.answers_ofFault? ..) (turns_alterSession hi rfl rfl)
  | offered packet =>
    simpa only [noteStep, Delivery.step, hs, setDelivery_self known] using .stays
  | finishing =>
    simpa only [noteStep, Delivery.step, hs] using
      .finishes _ known hs (turns_alterSession hi rfl rfl)
  | ended b => simpa only [noteStep, Delivery.step, hs, setDelivery_self known] using .stays

/-- **What one step changes**, as long as the session is there and its deliveries are its own. -/
theorem Step.change (hi : i < t.ambassador.sessions.length)
    (home : ∀ k d, t.deliveries k = some d → d.session = i) (h : Step i t t') :
    Change i t t' := by
  cases h with
  | push item ordinary => exact .arrives _ item ordinary (turns_alterSession hi rfl rfl)
  | setEnabled b => exact .enables _ b (turns_alterSession hi rfl rfl)
  | begin thread new => exact .begins thread new
  | deliver known => exact change_deliver hi known (home _ _ known)
  | @returns k d known h =>
    cases hs : d.stage with
    | handling n c => simpa only [noteReturn, Delivery.returned, hs] using .returns known hs h
    | _ => simpa only [noteReturn, Delivery.returned, hs, setDelivery_self known] using .stays
  | @verdict k d known accepted =>
    cases hs : d.stage with
    | offered packet => simpa only [noteVerdict, Delivery.heard, hs] using .hears known hs accepted
    | _ => simpa only [noteVerdict, Delivery.heard, hs, setDelivery_self known] using .stays
  | aside a turns => exact .aside a turns

end Dispatching

end Federate
