/-
The course of a delivery. What a delivery does that others can see, from the
moment it has an item: it reads the item; if there is a callback in it, the
standing moves on, the handler is called and ends; and a request is answered
with what came of it. A request that cannot be read is answered at once.
-/
import Federate.Ambassador.Delivery
namespace Federate.Delivery

/-- What a delivery does. -/
inductive Deed where
  /-- The item is read, with times in the family that is settled. -/
  | read (family : Option TimeFamily)
  /-- The standing moves on. -/
  | observed (c : Callback)
  | called (c : Callback)
  | returned (h : Handling)
  /-- The link has had the answer, and has spoken. -/
  | answered (packet : Bytes) (accepted : Bool)

/-- The item holds a callback, which is answered under the number, if there is one. -/
inductive Reads (family : Option TimeFamily) :
    CallbackQueue.Item → Option UInt32 → Callback → Prop where
  | notice (reason : String) : Reads family (.lost reason) none (.connectionLost reason)
  | request {n : UInt32} {e : Envelope} {c : Callback}
    (decodes : Callback.decode e family = .ok c) :
    Reads family (.request n e) (some n) c

/-- The fault that came of a handler, if one did: the one that it raised, or an internal one with
the text that it broke off with. -/
inductive Raises : Handling → Option Fault → Prop where
  | returned : Raises .returned none
  | failed (x : Fault) : Raises (.failed x) (some x)
  | panicked (text : String) :
    Raises (.panicked (some text)) (some (.known .federateInternalError text))
  | speechless :
    Raises (.panicked none) (some (.known .federateInternalError "handler panicked"))

/-- The item has been dealt with, but for the answer: the fault that came of it, and the deeds. -/
inductive Handled : CallbackQueue.Item → Option UInt32 → Option Fault → List Deed → Prop where
  | callback {family : Option TimeFamily} {item : CallbackQueue.Item} {n : Option UInt32}
    {c : Callback} {h : Handling} {fault : Option Fault} (reads : Reads family item n c)
    (raises : Raises h fault) :
    Handled item n fault [.read family, .observed c, .called c, .returned h]
  | undecodable {family : Option TimeFamily} {n : UInt32} {e : Envelope} {x : Fault}
    (decodes : Callback.decode e family = .error x) :
    Handled (.request n e) (some n) (some x) [.read family]

/-- The packet answers the request of a number: no fault came of it, or the packet has the name and
the details of the one that did. -/
inductive Answers : Bytes → UInt32 → Option Fault → Prop where
  | succeeded (n number last : UInt32) (session : UInt64) :
    Answers (Packet.encode (.callbackResponse n .succeeded) number session last) n none
  | failed (n number last : UInt32) (session : UInt64) (x : Fault) :
    Answers (Packet.encode (.callbackResponse n (.failed x.name x.details)) number session last) n
      (some x)

/-- The outcome that a request has earned. -/
inductive Earns (e : Envelope) : List Deed → CallbackOutcome → Prop where
  | succeeded {family : Option TimeFamily} {c : Callback}
    (decodes : Callback.decode e family = .ok c) :
    Earns e [.read family, .observed c, .called c, .returned .returned] .succeeded
  | failed {family : Option TimeFamily} {c : Callback} (decodes : Callback.decode e family = .ok c)
    (x : Fault) :
    Earns e [.read family, .observed c, .called c, .returned (.failed x)]
      (.failed x.name x.details)
  | panicked {family : Option TimeFamily} {c : Callback}
    (decodes : Callback.decode e family = .ok c) (text : String) :
    Earns e [.read family, .observed c, .called c, .returned (.panicked (some text))]
      (.failed "FederateInternalError" text)
  | speechless {family : Option TimeFamily} {c : Callback}
    (decodes : Callback.decode e family = .ok c) :
    Earns e [.read family, .observed c, .called c, .returned (.panicked none)]
      (.failed "FederateInternalError" "handler panicked")
  | undecodable {family : Option TimeFamily} {x : Fault}
    (decodes : Callback.decode e family = .error x) :
    Earns e [.read family] (.failed x.name x.details)

/-- The deeds of a whole delivery. Unless something has silenced the session, a request has its
answer, and the link accepts it. -/
inductive Complete (silenced : Bool) (item : CallbackQueue.Item) : List Deed → Prop where
  | notice {fault : Option Fault} {deeds : List Deed} (handled : Handled item none fault deeds) :
    Complete silenced item deeds
  | answered {n : UInt32} {fault : Option Fault} {deeds : List Deed} {packet : Bytes}
    {accepted : Bool} (handled : Handled item (some n) fault deeds)
    (answers : Answers packet n fault) (heard : silenced = false → accepted = true) :
    Complete silenced item (deeds ++ [.answered packet accepted])
  | silent {n : UInt32} {fault : Option Fault} {deeds : List Deed}
    (handled : Handled item (some n) fault deeds) (lost : silenced = true) :
    Complete silenced item deeds

/-- The deeds of a delivery that has come to a stage. -/
inductive Underway (silenced : Bool) (item : CallbackQueue.Item) :
    Delivery.Stage → List Deed → Prop where
  | taken : Underway silenced item (.taken item) []
  | observing {family : Option TimeFamily} {n : Option UInt32} {c : Callback}
    (reads : Reads family item n c) : Underway silenced item (.observing n c) [.read family]
  | entering {family : Option TimeFamily} {n : Option UInt32} {c : Callback}
    (reads : Reads family item n c) :
    Underway silenced item (.entering n c) [.read family, .observed c]
  | handling {family : Option TimeFamily} {n : Option UInt32} {c : Callback}
    (reads : Reads family item n c) :
    Underway silenced item (.handling n c) [.read family, .observed c, .called c]
  | leaving {family : Option TimeFamily} {n : Option UInt32} {c : Callback}
    (reads : Reads family item n c) (h : Handling) :
    Underway silenced item (.leaving n h) [.read family, .observed c, .called c, .returned h]
  | counting {n : Option UInt32} {fault : Option Fault} {deeds : List Deed}
    (handled : Handled item n fault deeds) : Underway silenced item (.counting n fault) deeds
  | answering {n : Option UInt32} {fault : Option Fault} {deeds : List Deed}
    (handled : Handled item n fault deeds) : Underway silenced item (.answering n fault) deeds
  | offered {n : UInt32} {fault : Option Fault} {deeds : List Deed} {packet : Bytes}
    (handled : Handled item (some n) fault deeds) (answers : Answers packet n fault) :
    Underway silenced item (.offered packet) deeds
  | finishing {deeds : List Deed} (complete : Complete silenced item deeds) :
    Underway silenced item .finishing deeds
  | ended {deeds : List Deed} (complete : Complete silenced item deeds) :
    Underway silenced item (.ended true) deeds

/-- The answers in some deeds that the link accepted. -/
def accepted (deeds : List Deed) : List Bytes :=
  deeds.filterMap fun
    | .answered packet true => some packet
    | _ => none

/-- An item is out for delivery. -/
def Stage.out : Delivery.Stage → Bool
  | .taking | .ended _ => false
  | _ => true

/-- The link has had the answer, or will not have one. -/
def Stage.settled : Delivery.Stage → Bool
  | .finishing | .ended true => true
  | _ => false

variable {silenced silenced' : Bool} {item : CallbackQueue.Item} {n : Option UInt32}
  {fault : Option Fault} {deeds : List Deed} {s : Delivery.Stage}

theorem Complete.mono (h : Complete silenced item deeds)
    (more : silenced = true → silenced' = true) : Complete silenced' item deeds := by
  cases h with
  | notice handled => exact .notice handled
  | answered handled answers heard =>
    refine .answered handled answers fun hs => heard ?_
    cases silenced with
    | false => rfl
    | true => rw [more rfl] at hs; cases hs
  | silent handled lost => exact .silent handled (more lost)

theorem Underway.mono (h : Underway silenced item s deeds)
    (more : silenced = true → silenced' = true) : Underway silenced' item s deeds := by
  cases h with
  | taken => exact .taken
  | observing reads => exact .observing reads
  | entering reads => exact .entering reads
  | handling reads => exact .handling reads
  | leaving reads h => exact .leaving reads h
  | counting handled => exact .counting handled
  | answering handled => exact .answering handled
  | offered handled answers => exact .offered handled answers
  | finishing complete => exact .finishing (complete.mono more)
  | ended complete => exact .ended (complete.mono more)

theorem accepted_append (deeds more : List Deed) :
    accepted (deeds ++ more) = accepted deeds ++ accepted more :=
  List.filterMap_append

/-- Nothing is answered before the answer. -/
theorem Handled.accepted (h : Handled item n fault deeds) : Delivery.accepted deeds = [] := by
  cases h <;> rfl

theorem Underway.accepted_of_unsettled (h : Underway silenced item s deeds)
    (unsettled : s.settled = false) : Delivery.accepted deeds = [] := by
  cases h with
  | counting handled | answering handled | offered handled => exact handled.accepted
  | finishing | ended => cases unsettled
  | _ => rfl

theorem raises_fault? (h : Handling) : Raises h h.fault? := by
  cases h with
  | returned => exact .returned
  | failed x => exact .failed x
  | panicked text =>
    cases text with
    | none => exact .speechless
    | some text => exact .panicked text

theorem answers_ofFault? (n number last : UInt32) (session : UInt64) (fault : Option Fault) :
    Answers (Packet.encode (.callbackResponse n (.ofFault? fault)) number session last) n
      fault := by
  cases fault with
  | none => exact .succeeded n number last session
  | some x => exact .failed n number last session x

/-- The answer to a request has the outcome that the request has earned. -/
theorem Handled.earns {e : Envelope} {m : UInt32} {packet : Bytes}
    (h : Handled (.request m e) (some m) fault deeds) (answers : Answers packet m fault) :
    ∃ outcome number session last, Earns e deeds outcome ∧
      packet = Packet.encode (.callbackResponse m outcome) number session last := by
  cases h with
  | callback reads raises =>
    cases reads with
    | request decodes =>
      cases raises with
      | returned => cases answers; exact ⟨_, _, _, _, .succeeded decodes, rfl⟩
      | failed x => cases answers; exact ⟨_, _, _, _, .failed decodes x, rfl⟩
      | panicked text => cases answers; exact ⟨_, _, _, _, .panicked decodes text, rfl⟩
      | speechless => cases answers; exact ⟨_, _, _, _, .speechless decodes, rfl⟩
  | undecodable decodes => cases answers; exact ⟨_, _, _, _, .undecodable decodes, rfl⟩

/-- A request has succeeded just when it was decoded and its handler returned. -/
theorem Earns.succeeded_iff {e : Envelope} {outcome : CallbackOutcome}
    (h : Earns e deeds outcome) : outcome = .succeeded ↔ ∃ family c,
      Callback.decode e family = .ok c ∧
      deeds = [.read family, .observed c, .called c, .returned .returned] := by
  cases h with
  | succeeded decodes => exact ⟨fun _ => ⟨_, _, decodes, rfl⟩, fun _ => rfl⟩
  | _ => simp

/-- Only the item itself moves the standing on, and does so before its handler is called. -/
theorem standing_step (d : Delivery) (a : Ambassador) :
    (d.step a).2.standing = match d.stage with
      | .observing _ c => a.standing.observe c.kind
      | _ => a.standing := by
  cases hs : d.stage with
  | taking =>
    simp only [step, hs, Ambassador.onSession]
    cases (a.session d.session).queue.next.1 <;> rfl
  | answering n fault =>
    cases n with
    | none => simp only [step, hs]
    | some n =>
      simp only [step, hs]
      split <;> rfl
  | _ => simp only [step, hs, Ambassador.alterSession]

/-- A delivery stays with its session, and leaves the connection alone. -/
theorem step_keeps (d : Delivery) (a : Ambassador) :
    (d.step a).1.session = d.session ∧ (d.step a).2.connection = a.connection := by
  cases hs : d.stage with
  | taking =>
    simp only [step, hs, Ambassador.onSession]
    cases (a.session d.session).queue.next.1 <;> exact ⟨rfl, rfl⟩
  | answering n fault =>
    cases n with
    | none => simp only [step, hs, goTo, and_self]
    | some n =>
      simp only [step, hs]
      split <;> exact ⟨rfl, rfl⟩
  | _ => simp only [step, hs, goTo, Ambassador.alterSession, and_self]

theorem session_returned (d : Delivery) (h : Handling) : (d.returned h).session = d.session := by
  unfold returned
  split <;> rfl

theorem session_heard (d : Delivery) : d.heard.session = d.session := by
  unfold heard
  split <;> rfl

/-- The item has moved the standing, if it is to, or there is none. -/
def Stage.passed : Stage → Bool
  | .taking | .taken _ | .observing _ _ => false
  | _ => true

/-- Once the standing has been moved, it is not moved again. -/
theorem standing_of_passed {d : Delivery} (passed : d.stage.passed = true) (a : Ambassador) :
    (d.step a).2.standing = a.standing := by
  rw [d.standing_step a]
  cases hs : d.stage with
  | observing => rw [hs] at passed; cases passed
  | _ => rfl

theorem passed_step {d : Delivery} (passed : d.stage.passed = true) (a : Ambassador) :
    (d.step a).1.stage.passed = true := by
  cases hs : d.stage with
  | taking | taken | observing => rw [hs] at passed; cases passed
  | answering n fault =>
    cases n with
    | none => simp only [step, hs]; rfl
    | some n =>
      simp only [step, hs]
      split <;> rfl
  | _ => simp only [step, hs]; rfl

theorem passed_returned {d : Delivery} (passed : d.stage.passed = true) (h : Handling) :
    (d.returned h).stage.passed = true := by
  unfold returned
  split
  · rfl
  · exact passed

theorem passed_heard {d : Delivery} (passed : d.stage.passed = true) :
    d.heard.stage.passed = true := by
  unfold heard
  split
  · rfl
  · exact passed

/-- A delivery that has found nothing is over. -/
theorem over_of_found_none {d : Delivery} (none : d.stage = .ended false) (a : Ambassador)
    (h : Handling) : d.step a = (d, a) ∧ d.returned h = d ∧ d.heard = d := by
  simp only [step, returned, heard, none, and_self]

theorem receive_of_ordinary (d : Delivery) (ordinary : item.isStop = false) :
    d.receive item = .taken item := by
  simp [receive, ordinary]

/-- What an item comes to, once read. -/
theorem underway_examine (ordinary : item.isStop = false) (family : Option TimeFamily) :
    Underway silenced item (examine family item) [.read family] := by
  cases item with
  | stop => cases ordinary
  | lost reason => exact .observing (.notice reason)
  | request n e =>
    cases hd : Callback.decode e family with
    | ok c =>
      simp only [examine, hd]
      exact .observing (.request hd)
    | error x =>
      simp only [examine, hd]
      exact .counting (.undecodable hd)

end Federate.Delivery
