/-
Refusals. Whatever a client is asked for, what is refused before anything is
sent leaves the client and the world as they were: the standing, the sessions
with their tables, numbers, counts and queues, the connection, and the link
(`Ask.refused_unchanged`). In between the steps of others, the steps before a
call do the same (`Errand.step_refused`). On the thread of a handler, what
changes the connection or the membership is always refused
(`Ask.refused_of_forbidden`), and so is evoking callbacks, unless the place of
the connection is held: then it does not come back (`Ask.unanswered`).
-/
import Federate.Client.Connection
import Federate.Proofs.Delivery.Attendance
namespace Federate

variable {ω α β : Type}

/-! ## Running a client -/

namespace Client

variable {a : Ambassador} {w : ω} {thread : Thread} {f : Fault}

theorem run_bind (x : Client ω α) (g : α → Client ω β) (s : Ambassador × ω) :
    (x >>= g).run s = (g (x.run s).1).run (x.run s).2 := rfl

theorem run_ambassador (s : Ambassador × ω) : (ambassador : Client ω Ambassador).run s = (s.1, s) :=
  rfl

/-- A fault ends an attempt. -/
theorem run_attempt_error {x : Attempt ω α} {g : α → Attempt ω β} {s s' : Ambassador × ω}
    (h : x.run.run s = (.error f, s')) : (x >>= g).run.run s = (.error f, s') := by
  have unfolded : (x >>= g).run.run s =
      (ExceptT.bindCont g (x.run.run s).1).run (x.run.run s).2 := rfl
  rw [unfolded, h]
  rfl

theorem run_attempt_ok {x : Attempt ω α} {g : α → Attempt ω β} {s s' : Ambassador × ω} {v : α}
    (h : x.run.run s = (.ok v, s')) : (x >>= g).run.run s = (g v).run.run s' := by
  have unfolded : (x >>= g).run.run s =
      (ExceptT.bindCont g (x.run.run s).1).run (x.run.run s).2 := rfl
  rw [unfolded, h]
  rfl

theorem run_pass_error {op : Operation} {inCallback : Bool}
    (h : a.standing.accept op inCallback = .error f) :
    (pass op inCallback).run (a, w) = (.error f, (a, w)) := by
  rw [pass, run_bind, run_ambassador]
  simp only [h]
  rfl

theorem run_pass_ok {op : Operation} {inCallback : Bool} {s : Standing}
    (h : a.standing.accept op inCallback = .ok s) :
    (pass op inCallback).run (a, w) = (.ok (), ({ a with standing := s }, w)) := by
  rw [pass, run_bind, run_ambassador]
  simp only [h]
  rfl

/-- What is refused at the gates has changed nothing. -/
theorem pass_refused {op : Operation} {inCallback : Bool} {s : Ambassador × ω}
    (h : ((pass op inCallback).run s).1 = .error f) : ((pass op inCallback).run s).2 = s := by
  obtain ⟨a, w⟩ := s
  cases passed : a.standing.accept op inCallback with
  | ok standing =>
    rw [run_pass_ok passed] at h
    cases h
  | error e => rw [run_pass_error passed]

theorem run_sure_ambassador (a : Ambassador) (w : ω) :
    (sure ambassador : Attempt ω Ambassador).run.run (a, w) = (.ok a, (a, w)) := rfl

theorem run_passTwice_error {service : Service}
    (h : a.standing.accept (.known service) (a.inCallback thread) = .error f) :
    (passTwice service thread).run.run (a, w) = (.error f, (a, w)) := by
  unfold passTwice
  rw [run_attempt_ok (run_sure_ambassador a w)]
  exact run_attempt_error (run_pass_error h)

/-- The gates of the connection mark nothing, and what they let through they let through again. -/
theorem run_passTwice_ok {service : Service} (gated : service = .connect ∨ service = .disconnect)
    {s : Standing} (h : a.standing.accept (.known service) (a.inCallback thread) = .ok s) :
    (passTwice service thread).run.run (a, w) = (.ok (), (a, w)) := by
  obtain ⟨rfl, outside⟩ : s = a.standing ∧ a.inCallback thread = false := by
    rcases gated with rfl | rfl <;>
    · simp only [Standing.accept] at h
      split at h
      · cases h
      · next outside =>
        split at h
        · cases h
        · cases h
          exact ⟨rfl, by simpa using outside⟩
  have again : a.standing.accept (.known service) false = .ok a.standing := by
    rw [← outside]
    exact h
  unfold passTwice
  rw [run_attempt_ok (run_sure_ambassador a w)]
  have first : (attempt (pass (.known service) (a.inCallback thread))).run.run (a, w) =
      (.ok (), (a, w)) := run_pass_ok h
  rw [run_attempt_ok first]
  exact run_pass_ok again

/-! ### Errands -/

/-- An errand that neither has a packet for the link nor waits takes its next step. -/
theorem run_advance_step (line : Line ω) (fuel : Nat) {e : Errand} (quiet : e.offered? = none)
    (idle : e.waits a = false) : (advance line (fuel + 1) e).run (a, w) =
      (advance line fuel (e.step a).1).run ((e.step a).2, w) := by
  rw [advance]
  simp only [quiet]
  rw [run_bind, run_ambassador]
  simp only [idle, Bool.false_eq_true, if_false]
  rfl

/-- What has ended goes no further. -/
theorem run_advance_ended (line : Line ω) {e : Errand} {result : Except Fault Reply}
    (ended : e.stage = .ended result) (fuel : Nat) :
    (advance line fuel e).run (a, w) = (e, (a, w)) := by
  induction fuel with
  | zero => rfl
  | succ fuel ih =>
    have step : e.step a = (e, a) := by simp only [Errand.step, ended]
    rw [run_advance_step line fuel (by simp only [Errand.offered?, ended])
      (by simp only [Errand.waits, ended]), step]
    exact ih

/-- A request is settled where its errand ends without having changed anything. -/
theorem run_pursue_ended (line : Line ω) {r : Request} {e : Errand} {fuel : Nat}
    {result : Except Fault Reply} (ended : e.stage = .ended result)
    (begun : (begin line thread r).run (a, w) = (advance line fuel e).run (a, w)) :
    (pursue line thread r).run (a, w) = (e, (a, w)) := by
  rw [run_advance_ended line ended] at begun
  have expired : (expire e : Client ω Errand).run (a, w) = (e, (a, w)) := by
    unfold expire
    simp only [ended]
    rfl
  rw [pursue, run_bind, begun, run_bind, expired, resume, run_advance_ended line ended]

/-- A request that its check refuses is given up in its first step. -/
theorem run_pursue_unchecked (line : Line ω) {r : Request}
    (h : r.check a.standing.family = .error f) :
    (pursue line thread r).run (a, w) = ((Errand.fresh thread r).fail f, (a, w)) := by
  have step : (Errand.fresh thread r).step a = ((Errand.fresh thread r).fail f, a) := by
    simp only [Errand.step, Errand.fresh, h]
  have idle : (Errand.fresh thread r).waits a = false := by
    simp only [Errand.waits, Errand.fresh, h]
    rfl
  have begun : (begin line thread r).run (a, w) =
      (advance line 19 ((Errand.fresh thread r).fail f)).run (a, w) := by
    have first := run_advance_step line 19 (e := .fresh thread r) (w := w) rfl idle
    rw [step] at first
    exact first
  exact run_pursue_ended line rfl begun

/-- A request that the gates refuse is given up in its second step. -/
theorem run_pursue_unaccepted (line : Line ω) {r : Request}
    (checked : r.check a.standing.family = .ok ())
    (seen : ((Errand.fresh thread r).awaited? a).isSome = true)
    (h : a.standing.accept r.operation (a.inCallback thread) = .error f) :
    (pursue line thread r).run (a, w) = ((Errand.fresh thread r).fail f, (a, w)) := by
  obtain ⟨awaited, found⟩ := Option.isSome_iff_exists.mp seen
  have step : (Errand.fresh thread r).step a =
      ((Errand.fresh thread r).goTo (.accepting awaited), a) := by
    simp only [Errand.step, Errand.fresh, checked] at found ⊢
    simp only [found]
  have idle : (Errand.fresh thread r).waits a = false := by
    simp only [Errand.waits, Errand.fresh] at found ⊢
    simp only [found, Option.isNone_some, Bool.and_false]
  have refuse : ((Errand.fresh thread r).goTo (.accepting awaited)).step a =
      ((Errand.fresh thread r).fail f, a) := by
    have gates : a.accept r.operation thread = .error f := by
      rw [Ambassador.accept, h]
      rfl
    simp only [Errand.step, Errand.fresh, Errand.goTo, Errand.operation, gates]
    rfl
  have begun : (begin line thread r).run (a, w) =
      (advance line 18 ((Errand.fresh thread r).fail f)).run (a, w) := by
    have first := run_advance_step line 19 (e := .fresh thread r) (w := w) rfl idle
    have second := run_advance_step line 18 (w := w) (a := a)
      (e := (Errand.fresh thread r).goTo (.accepting awaited)) rfl rfl
    rw [step] at first
    rw [refuse] at second
    exact first.trans second
  exact run_pursue_ended line rfl begun

/-! ### Evoking -/

/-- Whoever has seen the connection is refused within a handler. -/
theorem run_evokeWith_refused (name : String) (deliveries : Nat → Client ω Unit)
    (free : a.held = false) (h : a.inCallback thread = true) :
    (evokeWith name thread deliveries).run (a, w) =
      (some (.error (.known .callNotAllowedFromWithinCallback
        ((if a.connection.isSome then name else "evoke") ++ " called from a callback handler"))),
        (a, w)) := by
  have seen : a.look = some a.connection := by simp [Ambassador.look, free]
  rw [evokeWith, run_bind, run_ambassador, run_bind, run_ambassador]
  simp only [Summons.step, Summons.fresh, Summons.goTo, seen, h, if_true]
  rfl

/-- Nobody gets to see a connection whose place is held. -/
theorem run_evokeWith_held (name : String) (deliveries : Nat → Client ω Unit)
    (held : a.held = true) : (evokeWith name thread deliveries).run (a, w) = (none, (a, w)) := by
  have unseen : a.look = none := by simp [Ambassador.look, held]
  rw [evokeWith, run_bind, run_ambassador, run_bind, run_ambassador]
  simp only [Summons.step, Summons.fresh, unseen]
  rfl

end Client

/-! ## What is asked for, and what is refused -/

/-- What a federate asks its client for. -/
inductive Ask where
  | request (r : Request)
  | connect (model : CallbackModel) (localLine overrides : Option String)
  | disconnect
  | evoke
  | evokeMultiple (time : Bool)

namespace Ask

variable {a : Ambassador} {w : ω} {thread : Thread} {f : Fault}

/-- Does it evoke callbacks? -/
def evokes : Ask → Bool
  | .evoke | .evokeMultiple _ => true
  | .request _ | .connect _ _ _ | .disconnect => false

/-- What the client does about it. What it gives back is left out, but for a fault; there is nothing
if it does not come back. -/
def carryOut (line : Line ω) (handler : Handler ω) (thread : Thread) :
    Ask → Client ω (Option (Except Fault Unit))
  | .request r => do return (← Client.pursue line thread r).result?.map (·.map fun _ => ())
  | .connect model localLine overrides => do
    return some (← (Client.connect line handler thread model localLine overrides).run)
  | .disconnect => do return some (← (Client.disconnect line handler thread).run)
  | .evoke => do return (← Client.evoke line handler thread).map (·.map fun _ => ())
  | .evokeMultiple time => do
    return (← Client.evokeMultiple line handler thread time).map (·.map fun _ => ())

/-- What is refused before anything is sent, and with which fault. -/
inductive Refused (words : Settings.Words) (a : Ambassador) (thread : Thread) :
    Ask → Fault → Prop
  /-- A time is of another family, or an operation of the interface is asked for by its number. -/
  | unchecked {r : Request} {f : Fault} (refused : r.check a.standing.family = .error f) :
    Refused words a thread (.request r) f
  /-- The gates do not let it through; an update has first asked the connection how it is sent. -/
  | unaccepted {r : Request} {f : Fault} (checked : r.check a.standing.family = .ok ())
    (seen : ((Errand.fresh thread r).awaited? a).isSome = true)
    (refused : a.standing.accept r.operation (a.inCallback thread) = .error f) :
    Refused words a thread (.request r) f
  | connect {model : CallbackModel} {localLine overrides : Option String} {f : Fault}
    (refused : a.standing.accept (.known .connect) (a.inCallback thread) = .error f) :
    Refused words a thread (.connect model localLine overrides) f
  /-- The line of settings is no good. -/
  | settings {model : CallbackModel} {localLine overrides : Option String} {s : Standing}
    {f : Fault} (accepted : a.standing.accept (.known .connect) (a.inCallback thread) = .ok s)
    (refused : Client.connectionSettings words a.settings localLine overrides = .error f) :
    Refused words a thread (.connect model localLine overrides) f
  | disconnect {f : Fault}
    (refused : a.standing.accept (.known .disconnect) (a.inCallback thread) = .error f) :
    Refused words a thread .disconnect f
  | evoke (free : a.held = false) (within : a.inCallback thread = true) :
    Refused words a thread .evoke (.known .callNotAllowedFromWithinCallback
      ((if a.connection.isSome then "evokeCallback" else "evoke") ++
        " called from a callback handler"))
  | evokeMultiple {time : Bool} (free : a.held = false) (within : a.inCallback thread = true) :
    Refused words a thread (.evokeMultiple time) (.known .callNotAllowedFromWithinCallback
      ((if a.connection.isSome then "evokeMultipleCallbacks" else "evoke") ++
        " called from a callback handler"))

/-- What is refused leaves the client and the world as they were. -/
theorem refused_unchanged (line : Line ω) (handler : Handler ω) {ask : Ask}
    (h : Refused line.words a thread ask f) (w : ω) :
    (ask.carryOut line handler thread).run (a, w) = (some (.error f), (a, w)) := by
  cases h with
  | unchecked refused =>
    rw [carryOut, Client.run_bind, Client.run_pursue_unchecked line refused]
    rfl
  | unaccepted checked seen refused =>
    rw [carryOut, Client.run_bind, Client.run_pursue_unaccepted line checked seen refused]
    rfl
  | @connect model localLine overrides f refused =>
    have run : (Client.connect line handler thread model localLine overrides).run.run (a, w) =
        (.error f, (a, w)) := Client.run_attempt_error (Client.run_passTwice_error refused)
    rw [carryOut, Client.run_bind, run]
    rfl
  | @settings model localLine overrides s f accepted refused =>
    have run : (Client.connect line handler thread model localLine overrides).run.run (a, w) =
        (.error f, (a, w)) := by
      rw [Client.connect, Client.run_attempt_ok (Client.run_passTwice_ok (.inl rfl) accepted),
        Client.run_attempt_ok (Client.run_sure_ambassador a w), refused]
      exact Client.run_attempt_error rfl
    rw [carryOut, Client.run_bind, run]
    rfl
  | disconnect refused =>
    have run : (Client.disconnect line handler thread).run.run (a, w) = (.error f, (a, w)) :=
      Client.run_attempt_error (Client.run_passTwice_error refused)
    rw [carryOut, Client.run_bind, run]
    rfl
  | evoke free within =>
    rw [carryOut, Client.run_bind, Client.evoke, Client.run_evokeWith_refused _ _ free within]
    rfl
  | evokeMultiple free within =>
    rw [carryOut, Client.run_bind, Client.evokeMultiple,
      Client.run_evokeWith_refused _ _ free within]
    rfl

/-- Evoking callbacks does not come back while the place of the connection is held, and leaves the
client and the world as they were. -/
theorem unanswered (line : Line ω) (handler : Handler ω) {ask : Ask} (evokes : ask.evokes = true)
    (held : a.held = true) (w : ω) :
    (ask.carryOut line handler thread).run (a, w) = (none, (a, w)) := by
  cases ask with
  | evoke =>
    rw [carryOut, Client.run_bind, Client.evoke, Client.run_evokeWith_held _ _ held]
    rfl
  | evokeMultiple time =>
    rw [carryOut, Client.run_bind, Client.evokeMultiple, Client.run_evokeWith_held _ _ held]
    rfl
  | request | connect | disconnect => cases evokes

end Ask

/-- An errand that is given up before it has found a session has changed nothing, whatever others
have done between its steps. -/
theorem Errand.step_refused {e : Errand} {a : Ambassador} {f : Fault}
    (before : e.stage = .checking ∨ ∃ awaited, e.stage = .accepting awaited)
    (refused : (e.step a).1.stage = .ended (.error f)) : (e.step a).2 = a := by
  rcases before with hs | ⟨awaited, hs⟩
  · simp only [step, hs]
    split
    · split <;> rfl
    · rfl
  · simp only [step, hs] at refused ⊢
    split at refused
    · cases refused
    · rfl

/-! ## Within a handler -/

/-- A federate neither joins nor resigns within a handler; without a connection it is told so
first. -/
theorem Standing.accept_within (s : Standing) {service : Service}
    (member : service = .joinFederationExecution ∨ service = .resignFederationExecution) :
    ∃ details, s.accept (.known service) true = .error (.known
      (if s.connected then .callNotAllowedFromWithinCallback else .notConnected) details) := by
  rcases member with rfl | rfl <;>
    cases hc : s.connected <;>
    · simp only [accept, passGates, hc]
      exact ⟨_, rfl⟩

/-- Joining and resigning have no times in them. -/
theorem Request.check_of_member {s : Service} (r : s.arguments.Record)
    (member : s = .joinFederationExecution ∨ s = .resignFederationExecution)
    (family : Option TimeFamily) : (Request.service s r).check family = .ok () := by
  cases family with
  | none => rfl
  | some family =>
    rcases member with rfl | rfl
    · have modules : ∀ texts : List String,
          texts.forM (fun _ => (.ok () : Except Fault Unit)) = .ok () := by
        intro texts
        induction texts with
        | nil => rfl
        | cons text texts ih => exact ih
      show (do
        r.2.2.2.1.forM fun _ => (.ok () : Except Fault Unit)
        .ok ()) = .ok ()
      rw [modules]
      rfl
    · rfl

namespace Ask

variable {a : Ambassador} {thread : Thread}

/-- What is never done within a handler. -/
def forbidden : Ask → Bool
  | .request r => r.operation == .known .joinFederationExecution ||
      r.operation == .known .resignFederationExecution
  | .connect _ _ _ | .disconnect | .evoke | .evokeMultiple _ => true

/-- How it is refused there: as a call from within a callback, unless it needs a connection and
there is none. -/
def ban (a : Ambassador) : Ask → Fault.Kind
  | .request _ =>
    if a.standing.connected then .callNotAllowedFromWithinCallback else .notConnected
  | _ => .callNotAllowedFromWithinCallback

theorem refused_of_forbidden (words : Settings.Words) {ask : Ask}
    (within : a.inCallback thread = true)
    (forbidden : ask.forbidden = true) (seen : ask.evokes = true → a.held = false) :
    ∃ details, Refused words a thread ask (.known (ask.ban a) details) := by
  cases ask with
  | request r =>
    cases r with
    | other tag payload scope => cases forbidden
    | service s r =>
      have member : s = .joinFederationExecution ∨ s = .resignFederationExecution := by
        simpa [Ask.forbidden, Request.operation] using forbidden
      obtain ⟨details, refused⟩ := a.standing.accept_within member
      have quiet : (Errand.fresh thread (.service s r)).isUpdate = false := by
        rcases member with rfl | rfl <;> rfl
      refine ⟨details, .unaccepted (Request.check_of_member r member _) ?_ ?_⟩
      · rw [Errand.awaited?, quiet]
        rfl
      · rw [within]
        exact refused
  | connect model localLine overrides => exact ⟨_, .connect (by rw [within]; rfl)⟩
  | disconnect => exact ⟨_, .disconnect (by rw [within]; rfl)⟩
  | evoke => exact ⟨_, .evoke (seen rfl) within⟩
  | evokeMultiple time => exact ⟨_, .evokeMultiple (seen rfl) within⟩

/-- **Refusals have no effects, and handlers are kept from what they must not do.** What is refused
before anything is sent leaves the client and the world as they were, and so does every refusal
between the steps of others. On the thread that is marked, what is forbidden is refused in every
state, but for callbacks that are evoked while the place of the connection is held: that does not
come back and changes nothing, and is refused as soon as the thread has seen the connection. The
mark is gone once a handler has returned, failed or broken off, and only a thread that a handler has
is marked. -/
theorem refusal (line : Line ω) (handler : Handler ω) :
    (∀ (ask : Ask) (a : Ambassador) thread f (w : ω), Refused line.words a thread ask f →
      (ask.carryOut line handler thread).run (a, w) = (some (.error f), (a, w))) ∧
    (∀ (e : Errand) (a : Ambassador) f,
      e.stage = .checking ∨ (∃ awaited, e.stage = .accepting awaited) →
        (e.step a).1.stage = .ended (.error f) → (e.step a).2 = a) ∧
    (∀ op inCallback f (s : Ambassador × ω), ((Client.pass op inCallback).run s).1 = .error f →
      ((Client.pass op inCallback).run s).2 = s) ∧
    (∀ (ask : Ask) (a : Ambassador) thread (w : ω), a.inCallback thread = true →
      ask.forbidden = true → (ask.evokes = true → a.held = false) →
        ∃ details, (ask.carryOut line handler thread).run (a, w) =
          (some (.error (.known (ask.ban a) details)), (a, w))) ∧
    (∀ (ask : Ask) (a : Ambassador) thread (w : ω), ask.evokes = true → a.held = true →
      (ask.carryOut line handler thread).run (a, w) = (none, (a, w))) ∧
    (∀ (s : Summons) found (a : Ambassador), s.stage = .checking found →
      a.inCallback s.thread = true → ∃ details, (s.step a).stage =
        .refused (.known .callNotAllowedFromWithinCallback details)) ∧
    (∀ (d : Delivery) n c h (a : Ambassador), d.stage = .handling n c →
      ((d.returned h).step a).2.handling = none) ∧
    (∀ t, Attendance.Reachable t → ∀ thread, t.ambassador.inCallback thread = true →
      t.Attended thread) := by
  refine ⟨fun ask a thread f w h => refused_unchanged line handler h w,
    fun e a f => Errand.step_refused, fun op inCallback f s => Client.pass_refused,
    fun ask a thread w within forbidden seen => ?_,
    fun ask a thread w evokes held => unanswered line handler evokes held w,
    fun s found a => Summons.refused_of_marked,
    fun d n c h a handling => Delivery.unmarked handling h a,
    fun t h thread => h.attended⟩
  obtain ⟨details, refused⟩ := refused_of_forbidden line.words within forbidden seen
  exact ⟨details, refused_unchanged line handler refused w⟩

/-- A line over which nothing ever comes back. -/
def silentLine : Line Unit where
  connect _ w := (.ok (), w)
  start w := (.ok (), w)
  send _ w := (.ok [], w)
  spawn w := (.ok (), w)
  words _ := .error "no words are known"
  phrase _ := ""
  stamina := 0
  patience := 0

/-- A federate that takes no notice of its callbacks. -/
def heedless : Handler Unit := fun _ _ _ => pure .returned

/-- A member of a federation with discrete times, within a handler on its own thread. -/
def attending : Ambassador :=
  { Ambassador.fresh .standard with
    standing := Standing.fresh.join .discrete
    handling := some .application }

/-- To advance to a time of the other family. -/
def badAdvance : Request := .service .timeAdvanceRequest (.continuous .initial, ())

/-- A client that the coordinator calls back. -/
def summoned : Ambassador :=
  { Ambassador.fresh .standard with
    sessions :=
      [(Session.fresh ⟨none, none, .zero, none, ""⟩ .zero).onQueue (·.push (.lost "gone"))] }

/-- An advance to a time of another family is refused, and connecting again; within a handler the
federate neither resigns nor evokes callbacks, and waits if the place of the connection is held; a
handler that breaks off leaves no mark, and one that runs has its thread marked. -/
theorem refusal_attending :
    (∃ f, ((Ask.request badAdvance).carryOut silentLine heedless (.background 0)).run
      (attending, ()) = (some (.error f), (attending, ()))) ∧
    ((Errand.fresh .application badAdvance).step attending).2 = attending ∧
    ((Client.pass (.known .connect) false).run (attending, ())).2 = (attending, ()) ∧
    (∃ details, ((Ask.request (.service .resignFederationExecution (.noAction, ()))).carryOut
      silentLine heedless .application).run (attending, ()) =
        (some (.error (.known .callNotAllowedFromWithinCallback details)), (attending, ()))) ∧
    (∃ details, (Ask.evoke.carryOut silentLine heedless .application).run (attending, ()) =
      (some (.error (.known .callNotAllowedFromWithinCallback details)), (attending, ()))) ∧
    (Ask.evoke.carryOut silentLine heedless .application).run
      ({ attending with held := true }, ()) = (none, ({ attending with held := true }, ())) ∧
    (∃ details, ((⟨"evokeCallback", .application, .checking none⟩ : Summons).step attending).stage =
      .refused (.known .callNotAllowedFromWithinCallback details)) ∧
    (((⟨0, .application, .handling none (.connectionLost "gone")⟩ : Delivery).returned
      (.panicked none)).step attending).2.handling = none ∧
    ∃ t, Attendance.Reachable t ∧ t.ambassador.inCallback .application = true ∧
      t.Attended .application := by
  obtain ⟨unchanged, step, gates, forbidden, waits, summons, left, marked⟩ :=
    refusal silentLine heedless
  have refused : ∃ f, badAdvance.check attending.standing.family = .error f := ⟨_, rfl⟩
  obtain ⟨f, refused⟩ := refused
  have begun := (Relation.ReflTransGen.single
    (Attendance.Step.aside (t := .fresh .standard) summoned rfl rfl)).tail
      (.begin (k := 0) 0 .application rfl)
  have taken := begun.tail (.deliver (k := 0) rfl)
  have examined := taken.tail (.deliver (k := 0) rfl)
  have observed := examined.tail (.deliver (k := 0) rfl)
  have entered := observed.tail (.deliver (k := 0) rfl)
  have reached : Attendance.Reachable _ := ⟨.standard, entered⟩
  refine ⟨⟨f, unchanged _ _ _ _ () (.unchecked refused)⟩, ?_, ?_,
    forbidden _ attending .application () rfl rfl nofun,
    forbidden .evoke attending .application () rfl rfl fun _ => rfl,
    waits .evoke { attending with held := true } .application () rfl rfl,
    summons _ none attending rfl rfl, left _ _ _ _ attending rfl,
    _, reached, rfl, marked _ reached .application rfl⟩
  · refine step _ attending f (.inl rfl) ?_
    simp only [Errand.step, Errand.fresh, refused]
    rfl
  · exact gates _ _ _ (attending, ()) rfl

end Ask

end Federate
