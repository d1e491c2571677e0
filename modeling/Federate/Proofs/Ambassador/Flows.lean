/-
What a client does over a line, beside other threads. The line knows nothing of
them. Packets that go out and come in, calls, losses, and with them whatever a
handler of the federate does, are made of the steps that other threads take
(`Client.Flows`); deliveries make the ambassador wane (`Client.Wanes`).
-/
import Federate.Proofs.Ambassador.Amid
import Federate.Proofs.Ambassador.Beside
namespace Federate

variable {ω α β : Type}

/-- The line knows nothing of what other threads have in hand. -/
structure Line.Blind (line : Line ω) (view : ω → Aside) : Prop where
  connect : ∀ endpoint w, view (line.connect endpoint w).2 = view w
  start : ∀ w, view (line.start w).2 = view w
  send : ∀ packet w, view (line.send packet w).2 = view w
  spawn : ∀ w, view (line.spawn w).2 = view w

namespace Client

/-- The ambassador with what other threads have in hand. -/
def sight (view : ω → Aside) (s : Ambassador × ω) : Ambassador × Aside := (s.1, view s.2)

/-- Whatever comes of it, it is made of steps that other threads take, and delivers callbacks for
certain sessions only. -/
def Flows (view : ω → Aside) (mine : Set Nat) (x : Client ω α) : Prop :=
  ∀ s, Aside.Steps mine (sight view s) (sight view (x.run s).2)

/-- Whatever comes of it, it makes the ambassador wane. -/
def Wanes (view : ω → Aside) (x : Client ω α) : Prop :=
  ∀ s, Aside.Wanes (sight view s) (sight view (x.run s).2)

end Client

/-- The handlers do nothing but what other threads do. -/
def Handler.Flows (handler : Handler ω) (view : ω → Aside) : Prop :=
  ∀ session thread c, Client.Flows view Set.univ (handler session thread c)

namespace Client

variable {view : ω → Aside} {mine : Set Nat} {line : Line ω} {meanwhile : Client ω Unit}

/-! ## Steps -/

namespace Flows

theorem pure (v : α) : Flows view mine (pure v : Client ω α) := fun _ => .refl

theorem bind {x : Client ω α} {f : α → Client ω β} (h : Flows view mine x)
    (hf : ∀ v, Flows view mine (f v)) : Flows view mine (x >>= f) :=
  fun s => (h s).trans (hf _ _)

theorem onAmbassador {f : Ambassador → α × Ambassador} (h : ∀ a : Ambassador, a.Ebbs (f a).2) :
    Flows view mine (onAmbassador f : Client ω α) := fun s => .single (.alters (h s.1))

theorem onWorld {f : ω → α × ω} (blind : ∀ w, view (f w).2 = view w) :
    Flows view mine (onWorld f) := by
  intro s
  have same : sight view ((Client.onWorld f).run s).2 = sight view s :=
    congrArg (Prod.mk s.1) (blind s.2)
  rw [same]

theorem alterSession (i : Nat) {f : Session → Session} (h : ∀ s : Session, s.Ebbs (f s)) :
    Flows view mine (alterSession i f : Client ω Unit) :=
  .onAmbassador fun a => a.ebbs_alterSession i h

theorem onSession (i : Nat) {f : Session → α × Session} (h : ∀ s : Session, s.Ebbs (f s).2) :
    Flows view mine (Client.onAmbassador (·.onSession i f) : Client ω α) :=
  .onAmbassador fun a => a.ebbs_onSession i h

theorem mono {more : Set Nat} {x : Client ω α} (h : Flows view mine x) (sub : mine ⊆ more) :
    Flows view more x := fun s =>
  Relation.ReflTransGen.mono (fun _ _ step => Aside.Step.mono step sub) _ _ (h s)

theorem discard {x : Client ω α} (h : Flows view mine x) : Flows view mine (discard x) := h

theorem forM {f : α → Client ω Unit} (h : ∀ v, Flows view mine (f v)) (vs : List α) :
    Flows view mine (vs.forM f) := by
  induction vs with
  | nil => exact .pure ()
  | cons v vs ih => exact .bind (h v) fun _ => ih

end Flows

theorem flows_ambassador : Flows view mine (ambassador : Client ω Ambassador) := fun _ => .refl

theorem flows_lose (i : Nat) (reason : String) :
    Flows view mine (lose i reason : Client ω Unit) := fun _ => .single (.loses i reason)

theorem flows_release (i : Nat) : Flows view mine (release i : Client ω Unit) :=
  .alterSession i Session.ebbs_drop

theorem flows_releaseAmid (alone : ω → Nat → Bool) (i : Nat) :
    Flows view mine (releaseAmid alone i) := by
  refine .bind (.onWorld fun _ => rfl) fun last => ?_
  cases last
  · exact .pure ()
  · exact flows_release i

/-! ## Packets -/

section

variable (blind : line.Blind view)
include blind

theorem flows_put (i : Nat) (packet : Bytes) : Flows view mine (put line i packet) := by
  refine .bind flows_ambassador fun a => ?_
  split
  · exact .pure _
  · refine .bind (.onWorld (blind.send packet)) fun verdict => ?_
    cases verdict with
    | ok arrivals =>
      exact .bind (.alterSession i fun _ => .same rfl rfl rfl rfl) fun _ => .pure _
    | error e => exact .pure _

theorem flows_takeIn (i : Nat) {within : List Arrival → Client ω Unit}
    (hw : ∀ arrivals, Flows view mine (within arrivals)) (x : Arrival) :
    Flows view mine (takeIn line i within x) := by
  cases x with
  | lost reason =>
    refine .bind flows_ambassador fun a => ?_
    split
    · exact .pure _
    · exact flows_lose i reason
  | packet bs =>
    refine .bind flows_ambassador fun a => ?_
    split
    · exact .pure _
    · cases Packet.decode bs with
      | error flaw => exact .pure _
      | ok packet =>
        refine .bind (.onAmbassador fun a => a.ebbs_onPresence i fun p =>
          p.ebbs_receive packet a.clock) fun reaction => ?_
        obtain ⟨reply, loss⟩ := reaction
        have ends : Flows view mine (loss.elim (Pure.pure ()) (lose i) : Client ω Unit) := by
          cases loss with
          | none => exact .pure ()
          | some reason => exact flows_lose i reason
        cases reply with
        | none => cases loss <;> exact ends
        | some m =>
          have offers : Flows view mine
              (onAmbassador (·.onSession i (·.offer m)) : Client ω Bytes) :=
            .onSession i fun _ => .same rfl rfl rfl rfl
          refine offers.bind fun packet => (flows_put blind i packet).bind fun verdict => ?_
          cases verdict with
          | ok arrivals => exact (hw arrivals).bind fun _ => by cases loss <;> exact ends
          | error e => cases loss <;> exact ends

theorem flows_hear (i depth : Nat) (arrivals : List Arrival) :
    Flows view mine (hear line i depth arrivals) := by
  induction depth generalizing arrivals with
  | zero => exact .pure ()
  | succ depth ih => exact .forM (flows_takeIn blind i ih) arrivals

theorem flows_give (i : Nat) (packet : Bytes) : Flows view mine (give line i packet) := by
  refine (flows_put blind i packet).bind fun verdict => ?_
  cases verdict with
  | ok arrivals => exact (flows_hear blind i _ arrivals).bind fun _ => .pure _
  | error e => exact .pure _

theorem flows_transmit (i : Nat) (m : Message) : Flows view mine (transmit line i m) := by
  have offers : Flows view mine (onAmbassador (·.onSession i (·.offer m)) : Client ω Bytes) :=
    .onSession i fun _ => .same rfl rfl rfl rfl
  exact offers.bind fun packet => flows_give blind i packet

theorem flows_spawn (name : String) : Flows view mine (spawn line name) := by
  refine .bind (.onWorld blind.spawn) fun started => ?_
  cases started <;> exact .pure _

/-! ## Calls -/

theorem flows_followAmid (hm : Flows view mine meanwhile) (i fuel : Nat) (c : Call) :
    Flows view mine (followAmid line meanwhile i fuel c) := by
  induction fuel generalizing c with
  | zero => exact .pure c
  | succ fuel ih =>
    unfold followAmid
    split
    · exact .pure c
    · exact .bind hm fun _ => .bind (flows_give blind i _) fun verdict => .bind hm fun _ =>
        .bind (.onSession i fun s => c.ebbs_heard verdict s) fun c => ih c
    · exact .bind hm fun _ => .bind (.onSession i c.ebbs_step) fun c => ih c

omit blind in
theorem flows_lapseAmid (hm : Flows view mine meanwhile) (i : Nat) (c : Call) :
    Flows view mine (lapseAmid meanwhile i c) := by
  refine .bind hm fun _ => .bind (.onSession i c.ebbs_expire) fun c => ?_
  split
  · exact .bind hm fun _ => .bind (.onSession i c.ebbs_step) fun c => .bind hm fun _ =>
      .bind flows_ambassador fun a => .bind (flows_lose i _) fun _ => .bind hm fun _ =>
        .onSession i c.ebbs_step
  · exact .pure c

theorem flows_callAmid (hm : Flows view mine meanwhile) (i : Nat) (envelope : Envelope) :
    Flows view mine (callAmid line meanwhile i envelope) := by
  have begins : Flows view mine
      (onAmbassador (·.onSession i (Call.blocking envelope)) : Client ω Call) :=
    .onSession i fun _ => .same rfl rfl rfl rfl
  refine begins.bind fun c => .bind (flows_followAmid blind hm i _ c) fun c =>
    .bind (flows_lapseAmid hm i c) fun c => ?_
  split <;> exact .pure _

theorem flows_terminateAmid (hm : Flows view mine meanwhile) (i : Nat) :
    Flows view mine (terminateAmid line meanwhile i) := by
  have closes : Flows view mine (alterSession i (·.close) : Client ω Unit) :=
    .alterSession i fun _ => ⟨⟨fun h => h, fun _ => rfl, fun h => h, fun h => h⟩, .inl⟩
  refine closes.bind fun _ => .bind hm fun _ => .bind flows_ambassador fun a => ?_
  split
  · exact flows_lose i _
  · exact .bind hm fun _ => .bind (flows_transmit blind i _).discard fun _ => .bind hm fun _ =>
      flows_lose i _

theorem flows_shakeHandsAmid (hm : Flows view mine meanwhile) (i : Nat) :
    Flows view mine (shakeHandsAmid line meanwhile i) := by
  refine .bind (flows_transmit blind i _) fun verdict => ?_
  cases verdict with
  | error e => exact .pure _
  | ok u => exact .bind hm fun _ => .bind flows_ambassador fun a => .pure _

theorem flows_startHeartbeats (i : Nat) : Flows view mine (startHeartbeats line i) := by
  refine .bind flows_ambassador fun a => ?_
  split
  · exact .pure _
  · exact flows_spawn blind _

theorem flows_startDispatcher (model : CallbackModel) :
    Flows view mine (startDispatcher line model) := by
  unfold startDispatcher
  split
  · exact flows_spawn blind _
  · exact .pure _

end

/-! ## Deliveries -/

namespace Wanes

theorem pure (v : α) : Wanes view (pure v : Client ω α) := fun _ => .refl _

theorem bind {x : Client ω α} {f : α → Client ω β} (h : Wanes view x)
    (hf : ∀ v, Wanes view (f v)) : Wanes view (x >>= f) := fun s => (h s).trans (hf _ _)

end Wanes

theorem Flows.wanes {x : Client ω α} (h : Flows view mine x) : Wanes view x :=
  fun s => .of_steps (h s)

theorem wanes_stepDelivery (d : Delivery) :
    Wanes view (onAmbassador d.step : Client ω Delivery) := by
  intro s
  rcases d.ebbs_step s.1 with ebbed | ⟨n, c, -, observed⟩
  · have step : Aside.Step Set.univ (s.1, view s.2) ((d.step s.1).2, view s.2) := .alters ebbed
    exact .of_steps (.single step)
  · show Aside.Wanes (s.1, view s.2) ((d.step s.1).2, view s.2)
    rw [observed]
    exact .observe s.1 (view s.2) c.kind

variable {handler : Handler ω}

theorem wanes_carry (blind : line.Blind view) (hh : handler.Flows view) (fuel : Nat)
    (d : Delivery) : Wanes view (carry line handler fuel d) := by
  induction fuel generalizing d with
  | zero => exact .pure d
  | succ fuel ih =>
    unfold carry
    split
    · exact .pure d
    · exact .bind (hh _ _ _).wanes fun handling => ih _
    · next packet _ =>
      have gives : Flows view Set.univ (give line d.session packet) := flows_give blind _ _
      exact .bind gives.discard.wanes fun _ => ih _
    · exact .bind (wanes_stepDelivery d) fun d => ih d

theorem wanes_deliverAll (blind : line.Blind view) (hh : handler.Flows view) (i : Nat)
    (thread : Thread) (fuel : Nat) : Wanes view (deliverAll line handler i thread fuel) := by
  induction fuel with
  | zero => exact .pure ()
  | succ fuel ih =>
    refine .bind (.bind (wanes_carry blind hh _ _) fun d => .pure d.delivered) fun delivered => ?_
    split
    · exact ih
    · exact .pure ()

theorem wanes_stopDispatcher (blind : line.Blind view) (hh : handler.Flows view)
    (c : Connection) : Wanes view (stopDispatcher line handler c) := by
  have stops : Flows view Set.univ (alterSession c.session (·.onQueue .stop) : Client ω Unit) :=
    .alterSession c.session fun _ => .same rfl rfl rfl rfl
  refine stops.wanes.bind fun _ => ?_
  split
  · exact wanes_deliverAll blind hh c.session _ _
  · exact .pure ()

end Client

end Federate
