/-
The affairs of an ambassador: any number of errands, begun on any threads at any
time, each with its next step at any time, and everything else that moves the
one standing that they share. Answers come in, sessions are lost, callbacks are
delivered, the federate connects and disconnects, over any number of sessions;
whoever does so may be at any point of it. The link and the coordinator do to
the call of an errand what they please.

Beside it all, an observer notes what is done to the standing, and by whom; no
step looks at these notes. The standing is what they make of that of a new
client (`Reachable.noted`).
-/
import Mathlib.Logic.Relation
import Federate.Ambassador.Errand
import Federate.Proofs.Delivery.Course
import Federate.Proofs.Rows
import Federate.Proofs.Session.Loss
import Federate.Proofs.Session.Receipt
import Federate.Proofs.Standing.Exclusion
namespace Federate

open Function (update)

/-- Something that is done to a standing, and by whom. -/
inductive Event where
  /-- The gates let the operation of an errand through. -/
  | accepts (errand : Nat) (op : Operation) (inCallback : Bool)
  | confirms (errand : Nat) (op : Operation)
  | retracts (errand : Nat) (op : Operation)
  /-- The errand says that its join has succeeded. -/
  | joins (errand : Nat) (family : TimeFamily)
  /-- A join is noted as its answer comes in. -/
  | notes (session : Nat) (family : TimeFamily)
  /-- A callback of a session is delivered. -/
  | observes (session : Nat) (kind : Callback.Kind)
  | connects (session : Nat)
  /-- The client has disconnected, or a session is lost. -/
  | resets

namespace Event

/-- What is done to the standing. -/
def move : Event → Standing.Move
  | .accepts _ op inCallback => .accept op inCallback
  | .confirms _ op => .confirm op
  | .retracts _ op => .retract op
  | .joins _ family | .notes _ family => .join family
  | .observes _ kind => .observe kind
  | .connects _ => .connect
  | .resets => .reset

/-- The event can be one on the standing: what the gates let through, they do let through. -/
def Fits (s : Standing) : Event → Prop
  | .accepts _ op inCallback => s.Accepts op inCallback
  | _ => True

/-- The standing that some events make of that of a new client. -/
def stand (history : List Event) : Standing := Standing.idle.run (history.map move)

theorem stand_append (past later : List Event) :
    stand (past ++ later) = (stand past).run (later.map move) := by
  rw [stand, List.map_append, Standing.run_append, stand]

@[simp] theorem stand_append_singleton (past : List Event) (x : Event) :
    stand (past ++ [x]) = (stand past).after x.move := by
  rw [stand_append]
  rfl

end Event

/-! ## Who does what -/

/-- What an errand's next step does to the standing. -/
def Errand.event? (i : Nat) (e : Errand) (a : Ambassador) : Option Event :=
  match e.stage with
  | .accepting _ =>
    match a.accept e.operation e.thread with
    | .ok _ => some (.accepts i e.operation (a.inCallback e.thread))
    | .error _ => none
  | .settling (.ok _) => some (.confirms i e.operation)
  | .settling (.error _) => some (.retracts i e.operation)
  | .joining family _ => some (.joins i family)
  | .checking | .seeking _ | .calling _ _ _ | .reading _ | .ended _ => none

/-- The family that the next step of an answer makes known, if the answer is that to a join. -/
def Receipt.joined? (r : Receipt) : Option TimeFamily :=
  match r.stage, r.outcome with
  | .noting _ tag, .result payload =>
    if tag = Service.joinFederationExecution.code then
      match Service.readMembership.whole payload with
      | .ok (_, family) => some family
      | .error _ => none
    else none
  | _, _ => none

/-- What an answer's next step does to the standing. -/
def Receipt.event? (session : Nat) (r : Receipt) : Option Event := r.joined?.map (.notes session)

/-- What a loss's next step does to the standing. -/
def Loss.event? (l : Loss) : Option Event :=
  match l.stage with
  | .falling => some .resets
  | _ => none

/-- What a delivery's next step does to the standing. -/
def Delivery.event? (d : Delivery) : Option Event :=
  match d.stage with
  | .observing _ c => some (.observes d.session c.kind)
  | _ => none

/-- A standing after an event, or as it was if there is none. -/
def Standing.afterEvent (s : Standing) : Option Event → Standing
  | some x => s.after x.move
  | none => s

theorem Errand.standing_step (i : Nat) (e : Errand) (a : Ambassador) :
    (e.step a).2.standing = a.standing.afterEvent (e.event? i a) := by
  cases hs : e.stage with
  | checking =>
    simp only [step, event?, hs]
    split
    · split <;> rfl
    · rfl
  | accepting awaited =>
    simp only [step, event?, hs, Ambassador.accept]
    cases h : a.standing.accept e.operation (a.inCallback e.thread) with
    | ok s => simp [bind, Except.bind, Standing.afterEvent, Event.move, Standing.after, h, pure,
        Except.pure]
    | error f => rfl
  | seeking awaited =>
    simp only [step, event?, hs]
    split
    · rfl
    · rfl
    · split <;> rfl
  | calling awaited j call =>
    simp only [step, event?, hs]
    split <;> rfl
  | settling result =>
    cases result <;> simp only [step, event?, hs] <;> rfl
  | reading payload => simp only [step, event?, hs]; rfl
  | joining family reply => simp only [step, event?, hs]; rfl
  | ended result => simp only [step, event?, hs]; rfl

/-- What the gates let through in a step of an errand, they do let through. -/
theorem Errand.fits_of_event {i : Nat} {e : Errand} {a : Ambassador} {x : Event}
    (h : e.event? i a = some x) : x.Fits a.standing := by
  unfold event? at h
  split at h
  · split at h
    · next a' ha =>
      cases h
      simp only [Ambassador.accept] at ha
      cases hs : a.standing.accept e.operation (a.inCallback e.thread) with
      | ok s => exact ⟨s, hs⟩
      | error f => rw [hs] at ha; cases ha
    · cases h
  case h_2 | h_3 | h_4 => cases h; trivial
  all_goals cases h

theorem Errand.standing_onCall (e : Errand) (f : Call → Session → Call × Session)
    (a : Ambassador) : (e.onCall f a).2.standing = a.standing := by
  unfold onCall
  split <;> rfl

theorem Receipt.standing_step (session : Nat) (r : Receipt) (p : Presence) :
    (r.step p).2.standing = p.standing.afterEvent (r.event? session) := by
  cases hs : r.stage with
  | noting ticket tag =>
    simp only [step, event?, joined?, hs]
    cases r.outcome with
    | fault name details => rfl
    | result payload =>
      simp only [Presence.noteOutcome, Presence.noteJoin]
      by_cases htag : tag = Service.joinFederationExecution.code
      · rw [if_pos htag, if_pos htag]
        cases Service.readMembership.whole payload <;> rfl
      · rw [if_neg htag, if_neg htag]
        rfl
  | _ => simp only [step, event?, joined?, hs]; rfl

theorem Loss.standing_step (l : Loss) (p : Presence) :
    (l.step p).2.standing = p.standing.afterEvent l.event? := by
  cases hs : l.stage with
  | striking =>
    simp only [step, event?, hs]
    split <;> rfl
  | waking rest => cases rest <;> (simp only [step, event?, hs]; rfl)
  | _ => simp only [step, event?, hs]; rfl

theorem Delivery.standing_event (d : Delivery) (a : Ambassador) :
    (d.step a).2.standing = a.standing.afterEvent d.event? := by
  rw [d.standing_step a, event?]
  cases d.stage <;> rfl

/-! ## All of them -/

/-- The affairs of an ambassador. -/
structure Affairs where
  ambassador : Ambassador
  errands : Nat → Option Errand
  /-- What was done to the standing, first to last. -/
  history : List Event

namespace Affairs

/-- Those of a new client. -/
def fresh (settings : Settings) : Affairs where
  ambassador := .fresh settings
  errands _ := none
  history := []

def standing (t : Affairs) : Standing := t.ambassador.standing

def setErrand (t : Affairs) (i : Nat) (e : Errand) : Affairs :=
  { t with errands := update t.errands i (some e) }

/-- A step with what it does to the standing. -/
def does (t : Affairs) (a : Ambassador) (x : Option Event) : Affairs :=
  { t with ambassador := a, history := t.history ++ x.toList }

/-- A step of the affairs. -/
inductive Step (t : Affairs) : Affairs → Prop where
  | begin {i : Nat} (thread : Thread) (request : Request) (new : t.errands i = none) :
    Step t (t.setErrand i (.fresh thread request))
  | errand {i : Nat} {e : Errand} (known : t.errands i = some e) :
    Step t ((t.does (e.step t.ambassador).2 (e.event? i t.ambassador)).setErrand i
      (e.step t.ambassador).1)
  /-- The link speaks about the call of an errand, its answer comes, or the wait is over. -/
  | call {i : Nat} {e : Errand} (known : t.errands i = some e)
    (f : Call → Session → Call × Session) :
    Step t ((t.does (e.onCall f t.ambassador).2 none).setErrand i (e.onCall f t.ambassador).1)
  | answer (session : Nat) (r : Receipt) :
    Step t (t.does (t.ambassador.onPresence session r.step).2 (r.event? session))
  | loss (session : Nat) (l : Loss) :
    Step t (t.does (t.ambassador.onPresence session l.step).2 l.event?)
  | deliver (d : Delivery) : Step t (t.does (d.step t.ambassador).2 d.event?)
  | connect (session : Nat) :
    Step t (t.does { t.ambassador with standing := .fresh } (some (.connects session)))
  | disconnect : Step t (t.does { t.ambassador with standing := .idle } (some .resets))
  /-- Anything else. -/
  | aside (a : Ambassador) (same : a.standing = t.standing) : Step t (t.does a none)

/-- The affairs of a client, at any time. -/
def Reachable (t : Affairs) : Prop :=
  ∃ settings, Relation.ReflTransGen Step (fresh settings) t

variable {t t' : Affairs}

/-- What one step does to the standing is what is noted of it. -/
theorem Step.event (h : Step t t') :
    ∃ x : Option Event, t'.history = t.history ++ x.toList ∧
      t'.standing = t.standing.afterEvent x ∧ ∀ y ∈ x, y.Fits t.standing := by
  cases h with
  | begin => exact ⟨none, (List.append_nil _).symm, rfl, nofun⟩
  | @errand i e known =>
    exact ⟨e.event? i t.ambassador, rfl, e.standing_step i t.ambassador,
      fun _ hx => Errand.fits_of_event hx⟩
  | call known f => exact ⟨none, rfl, Errand.standing_onCall .., nofun⟩
  | answer session r =>
    refine ⟨r.event? session, rfl, r.standing_step session _, fun x hx => ?_⟩
    obtain ⟨family, -, rfl⟩ := Option.map_eq_some_iff.mp hx
    trivial
  | loss session l =>
    refine ⟨l.event?, rfl, l.standing_step _, fun x hx => ?_⟩
    unfold Loss.event? at hx
    split at hx <;> cases hx
    trivial
  | deliver d =>
    refine ⟨d.event?, rfl, d.standing_event _, fun x hx => ?_⟩
    unfold Delivery.event? at hx
    split at hx <;> cases hx
    trivial
  | connect session => exact ⟨some (.connects session), rfl, rfl, by rintro _ ⟨⟩; trivial⟩
  | disconnect => exact ⟨some .resets, rfl, rfl, by rintro _ ⟨⟩; trivial⟩
  | aside a same => exact ⟨none, rfl, same, nofun⟩

/-- The notes say how the standing came about. -/
structure Noted (t : Affairs) : Prop where
  standing : t.standing = Event.stand t.history
  fits : ∀ past x later, t.history = past ++ x :: later → x.Fits (Event.stand past)

theorem Noted.step (h : Noted t) (hs : Step t t') : Noted t' := by
  obtain ⟨x, hhistory, hstanding, hfits⟩ := hs.event
  cases x with
  | none =>
    rw [Option.toList_none, List.append_nil] at hhistory
    exact ⟨by rw [hstanding, hhistory]; exact h.standing, by rw [hhistory]; exact h.fits⟩
  | some x =>
    rw [Option.toList_some] at hhistory
    refine ⟨?_, fun past y later heq => ?_⟩
    · rw [hstanding, hhistory, Event.stand_append_singleton, ← h.standing]
      rfl
    · rw [hhistory] at heq
      rcases List.eq_nil_or_concat' later with rfl | ⟨later, last, rfl⟩
      · obtain ⟨rfl, hxy⟩ := List.append_inj' heq rfl
        cases hxy
        rw [← h.standing]
        exact hfits x rfl
      · rw [← List.cons_append, ← List.append_assoc] at heq
        exact h.fits past y later (List.append_inj' heq rfl).1

/-- **The standing is what has been done to it**, in every order of steps. -/
theorem Reachable.noted (h : Reachable t) : Noted t := by
  obtain ⟨settings, hs⟩ := h
  induction hs with
  | refl => exact ⟨rfl, fun past x later h => by simp [fresh] at h⟩
  | tail _ hs ih => exact ih.step hs

/-! ## A client to begin with -/

/-- The affairs of a client that has connected. -/
def opened : Affairs where
  ambassador := { Ambassador.fresh .standard with
    standing := .fresh
    sessions := [.fresh ⟨none, none, .zero, none, ""⟩ .zero]
    connection := some ⟨0, .evoked, .standard⟩ }
  errands _ := none
  history := [.connects 0]

theorem steps_opened : Relation.ReflTransGen Step (fresh .standard) opened := by
  have connected := Relation.ReflTransGen.single (Step.connect (t := fresh .standard) 0)
  exact connected.tail (.aside opened.ambassador rfl)

/-- The answer to a join of a federation with discrete times. -/
def welcome : Bytes := (Handle.ofUInt32 1 : Handle .federate).write ++ Shape.family.write .discrete

end Affairs

end Federate
