/-
What connecting and disconnecting bring about, part by part, whatever comes over
the line and whatever other threads do in between. Up to the mark nothing is in
use and the federate does not count as connected; a part that fails leaves
nothing behind it: what was opened has its link closed, or about to be closed by
a loss, or goes with the last that holds it (`Undone`). From the mark on, the
federate counts as connected but for a loss of the session and a callback that
tells of one, if the earlier sessions are settled (`held_establish`).
-/
import Federate.Proofs.Ambassador.Flows
import Federate.Proofs.Ambassador.Refusal
namespace Federate

variable {ω α β : Type}

namespace Client

open Aside (Kept Settled Sealed Held Steps)

variable {view : ω → Aside} {n : Nat}

/-! ## What a step brings about -/

/-- From a state of which the first holds, one of which the second holds comes of it. -/
def Brings (P : Ambassador × ω → Prop) (x : Client ω α) (Q : α → Ambassador × ω → Prop) : Prop :=
  ∀ s, P s → Q (x.run s).1 (x.run s).2

/-- How an attempt ends: well, or with a fault. -/
def Ends (Q : α → Ambassador × ω → Prop) (E : Fault → Ambassador × ω → Prop) :
    Except Fault α → Ambassador × ω → Prop
  | .ok v, s => Q v s
  | .error f, s => E f s

/-- What holds of a state whatever makes the ambassador wane. -/
def Lasting (view : ω → Aside) (P : Ambassador × ω → Prop) : Prop :=
  ∀ s s', P s → Aside.Wanes (sight view s) (sight view s') → P s'

variable {P : Ambassador × ω → Prop} {Q : α → Ambassador × ω → Prop}
  {R : β → Ambassador × ω → Prop} {E : Fault → Ambassador × ω → Prop}

namespace Brings

theorem pure {v : α} (h : ∀ s, P s → Q v s) : Brings P (pure v : Client ω α) Q := h

theorem bind {x : Client ω α} {f : α → Client ω β} (h : Brings P x Q)
    (hf : ∀ v, Brings (Q v) (f v) R) : Brings P (x >>= f) R :=
  fun s hp => hf _ _ (h s hp)

theorem onAmbassador {f : Ambassador → α × Ambassador}
    (h : ∀ s, P s → Q (f s.1).1 ((f s.1).2, s.2)) : Brings P (onAmbassador f : Client ω α) Q := h

/-- What waning leaves alone stays. -/
theorem wanes {x : Client ω α} (h : Wanes view x) (lasting : Lasting view P) :
    Brings P x fun _ => P :=
  fun s hp => lasting _ _ hp (h s)

theorem flows {x : Client ω α} (h : Flows view Set.univ x) (lasting : Lasting view P) :
    Brings P x fun _ => P := wanes h.wanes lasting

/-- The first fault ends an attempt. -/
theorem attempt_bind {x : Attempt ω α} {f : α → Attempt ω β} (h : Brings P x.run (Ends Q E))
    (hf : ∀ v, Brings (Q v) (f v).run (Ends R E)) : Brings P (x >>= f).run (Ends R E) := by
  intro s hp
  have first := h s hp
  cases hx : (x.run.run s).1 with
  | ok v =>
    rw [hx] at first
    have run : x.run.run s = (.ok v, (x.run.run s).2) := Prod.ext hx rfl
    rw [run_attempt_ok run]
    exact hf v _ first
  | error f =>
    rw [hx] at first
    have run : x.run.run s = (.error f, (x.run.run s).2) := Prod.ext hx rfl
    rw [run_attempt_error run]
    exact first

theorem sure_bind {x : Client ω α} {f : α → Attempt ω β} (h : Brings P x Q)
    (hf : ∀ v, Brings (Q v) (f v).run (Ends R E)) : Brings P (sure x >>= f).run (Ends R E) :=
  attempt_bind (fun s hp => h s hp) hf

end Brings

/-! ## What is left of a change of the connection -/

/-- So many sessions have been opened, and none of them is in use. -/
structure Unused (view : ω → Aside) (n : Nat) (s : Ambassador × ω) : Prop where
  connection : s.1.connection = none
  length : s.1.sessions.length = n
  kept : Kept (sight view s)

/-- Nothing is in use, and the federate does not count as connected. -/
structure Vacant (view : ω → Aside) (n : Nat) (s : Ambassador × ω) : Prop
    extends Unused view n s where
  connected : s.1.standing.connected = false

/-- The links of all sessions but the first `n` are closed, or about to be closed by a loss. There
is one fault with which somebody who still holds the session closes it when he lets go of it: there
was no thread for the heartbeats. -/
def Shut (view : ω → Aside) (alone : ω → Nat → Bool) (n : Nat) (f : Fault)
    (s : Ambassador × ω) : Prop :=
  ∀ i, n ≤ i → Sealed (sight view s) i ∨
    alone s.2 i = false ∧ ∃ reason, f = threadFault "heartbeat" reason

/-- Nothing is left of the sessions but the first `n`. -/
structure Undone (view : ω → Aside) (alone : ω → Nat → Bool) (n : Nat) (f : Fault)
    (s : Ambassador × ω) : Prop where
  connection : s.1.connection = none
  connected : s.1.standing.connected = false
  shut : Shut view alone n f s
  kept : Kept (sight view s)

theorem Unused.lasting : Lasting view (Unused view n) := fun _ _ h waned =>
  ⟨waned.ambassador.connection.trans h.connection, waned.ambassador.length.trans h.length,
    waned.kept h.kept⟩

theorem Vacant.lasting : Lasting view (Vacant view n) := fun _ _ h waned =>
  ⟨Unused.lasting _ _ h.toUnused waned, waned.ambassador.unconnected h.connected⟩

/-- What lasts goes on to last while a session is sealed. -/
theorem lasting_sealed (kept : ∀ s, P s → Kept (sight view s)) (lasting : Lasting view P)
    (i : Nat) : Lasting view fun s => P s ∧ Sealed (sight view s) i := fun s _ h waned =>
  ⟨lasting _ _ h.1 waned, waned.sealed (kept s h.1) i h.2⟩

theorem lasting_lost (lasting : Lasting view P) (i : Nat) :
    Lasting view fun s => P s ∧ (s.1.session i).lost = true := fun _ _ h waned =>
  ⟨lasting _ _ h.1 waned, (waned.ambassador.session i).lost h.2⟩

variable {alone : ω → Nat → Bool}

theorem Vacant.undone {s : Ambassador × ω} (h : Vacant view n s) (f : Fault) :
    Undone view alone n f s where
  connection := h.connection
  connected := h.connected
  shut _ hi := .inl (Aside.sealed_of_length_le (h.length ▸ hi))
  kept := h.kept

/-- The session that was opened last is sealed. -/
theorem Vacant.undone_of_sealed {s : Ambassador × ω} (h : Vacant view (n + 1) s)
    (shut : Sealed (sight view s) n) (f : Fault) : Undone view alone n f s where
  connection := h.connection
  connected := h.connected
  shut i hi := by
    rcases Nat.eq_or_lt_of_le hi with rfl | later
    · exact .inl shut
    · exact .inl (Aside.sealed_of_length_le (h.length ▸ later))
  kept := h.kept

variable {line : Line ω} {handler : Handler ω} {meanwhile : Client ω Unit}

/-- A session whose link is closed or about to be is let go of, and the attempt ends. -/
theorem brings_leave (f : Fault) :
    Brings (fun s => Vacant view (n + 1) s ∧ Sealed (sight view s) n)
      (do releaseAmid alone n; return .error f : Client ω (Except Fault α))
      (Ends Q (Undone view alone n)) := by
  refine .bind (.flows (flows_releaseAmid alone n)
    (lasting_sealed (fun _ h => h.kept) Vacant.lasting n)) fun _ => .pure fun s h => ?_
  exact h.1.undone_of_sealed h.2 f

/-- The session that was opened last is dropped. -/
theorem sealed_drop {a : Ambassador} {w : ω} (h : a.sessions.length = n + 1) :
    Sealed (sight view (a.alterSession n (·.drop), w)) n := by
  refine .inl ?_
  show ((a.alterSession n (·.drop)).session n).linkClosed = true
  rw [Ambassador.session_alterSession _ (h ▸ n.lt_succ_self)]
  rfl

theorem brings_drop (f : Fault) : Brings (Vacant view (n + 1))
    (do release n; return .error f : Client ω (Except Fault α))
    (Ends Q (Undone view alone n)) := by
  have drops : Brings (Vacant view (n + 1)) (release n)
      fun _ s => Vacant view (n + 1) s ∧ Sealed (sight view s) n := fun s h =>
    ⟨Brings.flows (flows_release n) Vacant.lasting s h, sealed_drop h.length⟩
  exact .bind drops fun _ => .pure fun s h => h.1.undone_of_sealed h.2 f

theorem brings_closeLink : Brings (Vacant view (n + 1))
    (alterSession n (·.close.closeLink) : Client ω Unit)
    fun _ s => Vacant view (n + 1) s ∧ Sealed (sight view s) n := fun s h => by
  have flows : Flows view Set.univ (alterSession n (·.close.closeLink) : Client ω Unit) :=
    .alterSession n fun _ => ⟨⟨fun h => h, fun _ => rfl, fun _ => rfl, fun h => h⟩, .inl⟩
  refine ⟨Vacant.lasting _ _ h (flows.wanes s), .inl ?_⟩
  show ((s.1.alterSession n (·.close.closeLink)).session n).linkClosed = true
  rw [Ambassador.session_alterSession _ (h.length ▸ n.lt_succ_self)]
  rfl

/-- Without a thread for the heartbeats, the session is over with its last holder. -/
theorem brings_unbeaten (reason : String) : Brings (Vacant view (n + 1))
    (do releaseAmid alone n; return .error (threadFault "heartbeat" reason) :
      Client ω (Except Fault α))
    (Ends Q (Undone view alone n)) := by
  intro s h
  cases last : alone s.2 n with
  | true =>
    have run : ((do releaseAmid alone n; return .error (threadFault "heartbeat" reason) :
        Client ω (Except Fault α))).run s =
          (do release n; return .error (threadFault "heartbeat" reason) :
            Client ω (Except Fault α)).run s := by
      simp only [releaseAmid, bind_assoc, run_bind]
      rw [show (onWorld fun w => (alone w n, w)).run s = (alone s.2 n, s) from rfl, last]
      rfl
    rw [run]
    exact brings_drop _ s h
  | false =>
    have run : ((do releaseAmid alone n; return .error (threadFault "heartbeat" reason) :
        Client ω (Except Fault α))).run s = (.error (threadFault "heartbeat" reason), s) := by
      simp only [releaseAmid, bind_assoc, run_bind]
      rw [show (onWorld fun w => (alone w n, w)).run s = (alone s.2 n, s) from rfl, last]
      rfl
    rw [run]
    refine ⟨h.connection, h.connected, fun i hi => ?_, h.kept⟩
    rcases Nat.eq_or_lt_of_le hi with rfl | later
    · exact .inr ⟨last, reason, rfl⟩
    · exact .inl (Aside.sealed_of_length_le (h.length ▸ later))

/-- Nothing at all is known of a state. -/
theorem Brings.any (x : Client ω α) : Brings (fun _ => True) x fun _ _ => True :=
  fun _ _ => trivial

/-- Whatever goes on, a session that has been terminated is lost. -/
theorem lost_terminateAmid (line : Line ω) (meanwhile : Client ω Unit) (i : Nat) :
    Brings (fun _ => True) (terminateAmid line meanwhile i)
      fun _ s => (s.1.session i).lost = true := by
  have loses : Brings (fun _ => True)
      (lose i "session terminated by the federate" : Client ω Unit)
      fun _ s => (s.1.session i).lost = true :=
    .onAmbassador fun s _ => s.1.lost_lose i _
  refine .bind (.any _) fun _ => .bind (.any meanwhile) fun _ => .bind (.any _) fun a => ?_
  split
  · exact loses
  · exact .bind (.any meanwhile) fun _ => .bind (.any _) fun _ => .bind (.any meanwhile) fun _ =>
      loses

section

variable (blind : line.Blind view) (hm : Flows view Set.univ meanwhile)
include blind hm

theorem brings_terminateAmid (lasting : Lasting view P) (i : Nat) :
    Brings P (terminateAmid line meanwhile i) fun _ s => P s ∧ (s.1.session i).lost = true :=
  fun s h => ⟨lasting _ _ h ((flows_terminateAmid blind hm i).wanes s),
    lost_terminateAmid line meanwhile i s trivial⟩

/-! ## Connecting -/

omit blind hm in
theorem Brings.vacant {x : Client ω α} (h : Flows view Set.univ x) :
    Brings (Vacant view n) x fun _ => Vacant view n := .flows h Vacant.lasting

omit hm in
theorem brings_startHeartbeats : Brings (Vacant view (n + 1)) (startHeartbeats line n)
    (Ends (fun _ => Vacant view (n + 1)) fun f s => Vacant view (n + 1) s ∧
      ∃ reason, f = threadFault "heartbeat" reason) := by
  intro s h
  have vacant : Vacant view (n + 1) _ :=
    Brings.flows (flows_startHeartbeats blind n) Vacant.lasting s h
  have fault : ∀ f, ((startHeartbeats line n).run s).1 = .error f →
      ∃ reason, f = threadFault "heartbeat" reason := by
    intro f hf
    rw [startHeartbeats, run_bind, run_ambassador] at hf
    split at hf
    · cases hf
    · rw [spawn, run_bind] at hf
      split at hf
      · next reason _ => cases hf; exact ⟨reason, rfl⟩
      · cases hf
  cases hr : ((startHeartbeats line n).run s).1 with
  | ok u => exact vacant
  | error f => exact ⟨vacant, fault f hr⟩

theorem brings_settleSession : Brings (Vacant view (n + 1))
    (settleSessionAmid line meanwhile alone n)
    (Ends (fun _ => Vacant view (n + 1)) (Undone view alone n)) := by
  have goes : Brings (Vacant view (n + 1)) meanwhile fun _ => Vacant view (n + 1) := .vacant hm
  refine .bind goes fun _ => .bind (.vacant (.onWorld blind.start)) fun begun => ?_
  cases begun with
  | error e => exact brings_drop _
  | ok u =>
    refine .bind goes fun _ => .bind (.vacant (flows_shakeHandsAmid blind hm n)) fun shaken => ?_
    cases shaken with
    | error e =>
      exact .bind goes fun _ => .bind brings_closeLink fun _ => .bind (.flows hm
        (lasting_sealed (fun _ h => h.kept) Vacant.lasting n)) fun _ => brings_leave e
    | ok id =>
      refine .bind goes fun _ => .bind (.vacant ?_) fun _ => .bind goes fun _ =>
        .bind (brings_startHeartbeats blind) fun beating => ?_
      · exact .alterSession n fun _ => .same rfl rfl rfl rfl
      · cases beating with
        | ok u => exact .pure fun _ h => h
        | error e =>
          rintro s ⟨h, reason, rfl⟩
          exact Brings.bind goes (fun _ => brings_unbeaten reason) s h

/-- A session is opened behind the others, or nothing is left of it. -/
theorem brings_openSession (settings : Settings) : Brings (Vacant view n)
    (openSessionAmid line meanwhile alone settings)
    (Ends (fun i s => i = n ∧ Vacant view (n + 1) s) (Undone view alone n)) := by
  refine .bind (.vacant (.onWorld (blind.connect settings.endpoint))) fun begun => ?_
  cases begun with
  | error e => exact .pure fun _ h => h.undone _
  | ok u =>
    have opens : ∀ s : Ambassador × ω, Vacant view n s → s.1.sessions.length = n ∧
        Vacant view (n + 1) ((s.1.openSession (.ofSettings line.phrase settings)).2, s.2) :=
      fun s h => ⟨h.length, ⟨h.connection, by simp [Ambassador.openSession, h.length],
        h.kept.openSession _⟩, h.connected⟩
    refine .bind (.onAmbassador (Q := fun i s => i = n ∧ Vacant view (n + 1) s) opens) fun i => ?_
    rintro s ⟨rfl, h⟩
    refine Brings.bind (brings_settleSession blind hm) (fun settled => ?_) s h
    cases settled with
    | error e => exact .pure fun _ h => h
    | ok u => exact .pure fun _ h => ⟨rfl, h⟩

/-- A session that is lost is sealed. -/
theorem brings_askForConnection (model : CallbackModel) (localLine : Option String) :
    Brings (Vacant view (n + 1))
      (askForConnectionAmid line meanwhile alone n model localLine)
      (Ends (fun _ => Vacant view (n + 1)) (Undone view alone n)) := by
  refine .bind (.vacant (flows_callAmid blind hm n _)) fun answer => ?_
  cases answer with
  | ok payload => exact .pure fun _ h => h
  | error e =>
    refine .bind (.vacant hm) fun _ => .bind (brings_terminateAmid blind hm Vacant.lasting n)
      fun _ => .bind (.flows hm (lasting_lost Vacant.lasting n)) fun _ s h => ?_
    exact brings_leave e s ⟨h.1, h.1.kept.shut n h.2⟩

theorem brings_retireStale (hh : handler.Flows view) :
    Brings (fun s => s.1.standing.connected = false ∧ s.1.sessions.length = n ∧
        Kept (sight view s))
      (retireStaleAmid line handler meanwhile alone) fun _ => Vacant view n := by
  have goes : Brings (Vacant view n) meanwhile fun _ => Vacant view n := .vacant hm
  refine .bind (.onAmbassador (Q := fun _ => Vacant view n) fun s h =>
    ⟨⟨rfl, h.2.1, h.2.2.same rfl⟩, h.1⟩) fun c => ?_
  cases c with
  | none => exact .pure fun _ h => h
  | some c =>
    refine .bind goes fun _ => .bind (.wanes (wanes_stopDispatcher blind hh c) Vacant.lasting)
      fun _ => .bind goes fun _ => .bind (.vacant (flows_terminateAmid blind hm c.session))
        fun _ => .bind goes fun _ => .bind (.vacant (flows_releaseAmid alone c.session))
          fun _ => .onAmbassador fun s h => ?_
    exact ⟨⟨h.connection, h.length, h.kept.same rfl⟩, h.connected⟩

variable (alone) in
theorem brings_prepare (hh : handler.Flows view) (settings : Settings) (model : CallbackModel)
    (localLine : Option String) :
    Brings (fun s => s.1.standing.connected = false ∧ s.1.sessions.length = n ∧
        Kept (sight view s))
      (prepareAmid line handler meanwhile alone settings model localLine).run
      (Ends (fun c s => c = { session := n, model, settings } ∧ Vacant view (n + 1) s)
        (Undone view alone n)) := by
  have goes {m : Nat} : Brings (Vacant view m) meanwhile fun _ => Vacant view m := .vacant hm
  have lasts : Lasting view fun s => s.1.standing.connected = false ∧ s.1.sessions.length = n ∧
      Kept (sight view s) := fun s s' h waned =>
    ⟨waned.ambassador.unconnected h.1, waned.ambassador.length.trans h.2.1, waned.kept h.2.2⟩
  refine .sure_bind (.flows hm lasts) fun _ =>
    .sure_bind (brings_retireStale blind hm hh) fun _ => .sure_bind goes fun _ =>
      .attempt_bind (brings_openSession blind hm settings) fun i => ?_
  rintro s ⟨rfl, h⟩
  refine Brings.sure_bind goes (fun _ => .attempt_bind
    (brings_askForConnection blind hm model localLine) fun _ => .sure_bind goes fun _ =>
      fun _ h => ?_) s h
  exact ⟨rfl, h⟩

theorem brings_putIntoUse {c : Connection} (hc : c.session = n) :
    Brings (Unused view (n + 1)) (putIntoUseAmid line meanwhile alone c)
      (Ends (fun _ s => s.1.connection = some c ∧ s.1.sessions.length = n + 1 ∧
        Kept (sight view s)) (Undone view alone n)) := by
  subst hc
  have goes : Brings (Unused view (c.session + 1)) meanwhile fun _ => Unused view (c.session + 1) :=
    .flows hm Unused.lasting
  refine .bind (.flows (flows_startDispatcher blind c.model) Unused.lasting) fun started => ?_
  cases started with
  | error e =>
    refine .bind goes fun _ => .bind (brings_terminateAmid blind hm Unused.lasting c.session)
      fun _ => .bind (.flows hm (lasting_lost Unused.lasting c.session)) fun _ =>
        .bind (.onAmbassador (Q := fun _ s => Vacant view (c.session + 1) s ∧
          Sealed (sight view s) c.session) fun s h => ?_) fun _ => brings_leave e
    have kept : Kept (sight view (s.1.reset, s.2)) := h.1.kept.same rfl
    exact ⟨⟨⟨h.1.connection, h.1.length, kept⟩, rfl⟩, kept.shut c.session h.2⟩
  | ok u =>
    exact .bind goes fun _ => .bind (.onAmbassador (Q := fun _ s => s.1.connection = some c ∧
      s.1.sessions.length = c.session + 1 ∧ Kept (sight view s)) fun s h =>
        ⟨rfl, h.length, h.kept.same rfl⟩) fun _ => .pure fun _ h => h

omit blind in
theorem brings_noticeLoss (i : Nat) : Brings (Unused view n) (noticeLossAmid meanwhile i)
    fun _ => Unused view n := by
  refine .bind (.flows flows_ambassador Unused.lasting) fun a => ?_
  split
  · exact .bind (.flows hm Unused.lasting) fun _ => .onAmbassador fun s h =>
      ⟨h.connection, h.length, h.kept.same rfl⟩
  · exact .pure fun _ h => h

variable (alone) in
theorem brings_establish {c : Connection} (hc : c.session = n) :
    Brings (Vacant view (n + 1)) (establishAmid line meanwhile alone c)
      (Ends (fun _ s => s.1.connection = some c ∧ s.1.sessions.length = n + 1 ∧
        Kept (sight view s)) (Undone view alone n)) := by
  have goes : Brings (Unused view (n + 1)) meanwhile fun _ => Unused view (n + 1) :=
    .flows hm Unused.lasting
  exact .bind (.onAmbassador (Q := fun _ => Unused view (n + 1)) fun s h =>
      ⟨h.connection, h.length, h.kept.same rfl⟩)
    fun _ => .bind goes fun _ => .bind (brings_noticeLoss hm c.session) fun _ =>
      .bind goes fun _ => brings_putIntoUse blind hm hc

end

/-! ## Counting as connected -/

variable (alone) in
theorem held_establish (blind : line.Blind view) (hm : Flows view {n} meanwhile) {c : Connection}
    (hc : c.session = n) (told : Nat) :
    Brings (fun s => Vacant view (n + 1) s ∧ Settled n (sight view s) ∧ told ≤ (view s.2).told)
      (establishAmid line meanwhile alone c)
      (Ends (fun _ s => Held n told (sight view s)) fun _ _ => True) := by
  subst hc
  let Holds (s : Ambassador × ω) : Prop := Held c.session told (sight view s)
  have flows {α : Type} {x : Client ω α} (h : Flows view {c.session} x) :
      Brings Holds x fun _ => Holds := fun s held => Held.steps held (h s)
  refine .bind (.onAmbassador (Q := fun _ => Holds) fun s h =>
    ⟨h.1.kept.same rfl, h.1.length, h.2.1.same rfl, h.2.2, .inl rfl⟩) fun _ =>
      .bind (flows hm) fun _ => .bind (Q := fun _ => Holds) ?_ fun _ => .bind (flows hm) fun _ =>
        .bind (flows (flows_startDispatcher blind c.model)) fun started => ?_
  · refine .bind (Q := fun a s => Holds s ∧ a = s.1) (fun s h => ⟨h, rfl⟩) fun a => ?_
    split
    · next lost =>
      rintro s ⟨held, rfl⟩
      have goes : Brings (fun s => Holds s ∧ (s.1.session c.session).lost = true) meanwhile
          fun _ s => Holds s ∧ (s.1.session c.session).lost = true := fun s h =>
        ⟨Held.steps h.1 (hm s), ((hm.wanes s).ambassador.session c.session).lost h.2⟩
      have resets : Brings (fun s => Holds s ∧ (s.1.session c.session).lost = true)
          (alter (·.reset)) fun _ => Holds := .onAmbassador fun s h => h.1.alter rfl (.inr h.2)
      exact Brings.bind goes (fun _ => resets) s ⟨held, lost⟩
    · exact .pure fun _ h => h.1
  · cases started with
    | error e => exact fun _ _ => trivial
    | ok u =>
      exact .bind (flows hm) fun _ => .bind (.onAmbassador (Q := fun _ => Holds) fun s h =>
        h.alter rfl (.inl rfl)) fun _ => .pure fun _ h => h

/-! ## Disconnecting -/

end Client

end Federate
