/-
Connecting is all or nothing, and disconnecting ends clean, whatever comes over
the line and whatever other threads do between any two steps.

If connecting fails, nothing is in use, and the link of what was opened is closed
or about to be (`unclosed_when_struck`); if it does not, a session is in use, and
the federate counts as connected unless the session is lost (`all_or_nothing`).
What ends that otherwise is a callback of the coordinator, which may say itself
that the connection is lost and is believed (`disconnected_when_told`), and the
loss of an earlier session that is still under way when the federate is marked as
connected (`disconnected_by_late_loss`).
-/
import Federate.Proofs.Ambassador.Connecting
namespace Federate

variable {ω : Type}

namespace Client

open Aside (Kept Settled Held Steps)

variable {view : ω → Aside} {n : Nat} {alone : ω → Nat → Bool} {line : Line ω}
  {handler : Handler ω} {meanwhile : Client ω Unit}

/-- A closed link takes no packet, whatever happens later. -/
theorem run_put_of_closed {a later : Ambassador} {i : Nat} (h : (a.session i).linkClosed = true)
    (waned : a.Wanes later) (packet : Bytes) (w : ω) :
    (put line i packet).run (later, w) = (.error .closed, (later, w)) := by
  have closed := (waned.session i).closed h
  rw [put, run_bind, run_ambassador]
  simp only [closed, if_true]
  rfl

/-- What connecting comes to, which begins and ends with these, and goes as far as to the mark in a
certain way. -/
structure Connecting (view : ω → Aside) (alone : ω → Nat → Bool) (line : Line ω)
    (upTo : Attempt ω Connection) (thread : Thread) (model : CallbackModel)
    (localLine overrides : Option String) (s : Ambassador × ω) (result : Except Fault Unit)
    (s' : Ambassador × ω) : Prop where
  /-- What the gates refuse has changed nothing. -/
  refused : ∀ f, s.1.standing.accept (.known .connect) (s.1.inCallback thread) = .error f →
    result = .error f ∧ s' = s
  /-- Otherwise, nothing is left of what has failed. -/
  failed : ∀ x f, s.1.standing.accept (.known .connect) (s.1.inCallback thread) = .ok x →
    result = .error f → s'.1.standing.connected = false ∧
      Shut view alone s.1.sessions.length f s' ∧
      (∀ i later packet w, (s'.1.session i).linkClosed = true → s'.1.Wanes later →
        (put line i packet).run (later, w) = (.error .closed, (later, w))) ∧
      (s'.1.connection = none ∨
        connectionSettings line.words s.1.settings localLine overrides = .error f ∧ s' = s) ∧
      s'.1.standing.accept (.known .connect) false = .ok s'.1.standing
  /-- What has not failed has put a session into use. From then on, the federate counts as connected
  unless the session is lost or a callback tells of it, if the earlier sessions were settled at the
  mark. -/
  connected : result = .ok () → ∃ c m, upTo.run.run s = (.ok c, m) ∧
    c.session = s.1.sessions.length ∧ c.model = model ∧ s'.1.connection = some c ∧
    s'.1.sessions.length = s.1.sessions.length + 1 ∧
    (Settled s.1.sessions.length (sight view m) →
      ∀ later, Steps {s.1.sessions.length} (sight view s') later →
        later.1.standing.connected = true ∨ (later.1.session s.1.sessions.length).lost = true ∨
          (view m.2).told < later.2.told)
  kept : Kept (sight view s')

theorem unconnected_of_accept {s x : Federate.Standing} {inCallback : Bool}
    (h : s.accept (.known .connect) inCallback = .ok x) : s.connected = false := by
  simp only [Standing.accept] at h
  split at h
  · cases h
  · split at h
    · cases h
    · next hc => simpa using hc

theorem accept_of_unconnected {s : Federate.Standing} (h : s.connected = false) :
    s.accept (.known .connect) false = .ok s := by
  simp [Standing.accept, h]

/-- Connecting as far as to the mark, once the gates have been passed. -/
theorem run_upToMark {a : Ambassador} {w : ω} {thread : Thread} {x : Federate.Standing}
    (model : CallbackModel) {localLine overrides : Option String}
    (gates : a.standing.accept (.known .connect) (a.inCallback thread) = .ok x)
    {settings : Settings}
    (hs : connectionSettings line.words a.settings localLine overrides = .ok settings) :
    (upToMark line handler meanwhile alone thread model localLine overrides).run.run (a, w) =
      (prepareAmid line handler meanwhile alone settings model localLine).run.run (a, w) := by
  refine (run_attempt_ok (run_passTwice_ok (.inl rfl) gates)).trans
    ((run_attempt_ok (run_sure_ambassador a w)).trans (run_attempt_ok ?_))
  rw [hs]
  rfl

/-- Bad settings end it before anything is opened. -/
theorem run_upToMark_error {a : Ambassador} {w : ω} {thread : Thread} {x : Federate.Standing}
    (model : CallbackModel) {localLine overrides : Option String}
    (gates : a.standing.accept (.known .connect) (a.inCallback thread) = .ok x) {f : Fault}
    (hs : connectionSettings line.words a.settings localLine overrides = .error f) :
    (upToMark line handler meanwhile alone thread model localLine overrides).run.run (a, w) =
      (.error f, (a, w)) := by
  refine (run_attempt_ok (run_passTwice_ok (.inl rfl) gates)).trans
    ((run_attempt_ok (run_sure_ambassador a w)).trans (run_attempt_error ?_))
  rw [hs]
  rfl

section

variable {afterwards : Client ω Unit} {thread : Thread} {model : CallbackModel}
  {localLine overrides : Option String} {s s' : Ambassador × ω}

/-- Connecting has failed behind the gates, and is undone. -/
theorem Undone.connecting {f : Fault} {upTo : Attempt ω Connection}
    (undone : Undone view alone s.1.sessions.length f s') {x : Federate.Standing}
    (gates : s.1.standing.accept (.known .connect) (s.1.inCallback thread) = .ok x) :
    Connecting view alone line upTo thread model localLine overrides s (.error f) s' := by
  refine ⟨fun f' h => ?_, fun x f' h hf => ?_, nofun, undone.kept⟩
  · cases gates.symm.trans h
  · cases hf
    exact ⟨undone.connected, undone.shut, fun i later packet w closed waned =>
      run_put_of_closed closed waned packet w, .inl undone.connection,
      accept_of_unconnected undone.connected⟩

/-- Connecting has come to the mark. -/
theorem connecting_from_mark (blind : line.Blind view)
    (ha : Flows view {s.1.sessions.length} afterwards) {upTo : Attempt ω Connection}
    {c : Connection} {m : Ambassador × ω} (marks : upTo.run.run s = (.ok c, m))
    (session : c.session = s.1.sessions.length) (hmodel : c.model = model)
    (vacant : Vacant view (s.1.sessions.length + 1) m) {x : Federate.Standing}
    (gates : s.1.standing.accept (.known .connect) (s.1.inCallback thread) = .ok x) :
    Connecting view alone line upTo thread model localLine overrides s
      ((establishAmid line afterwards alone c).run m).1
      ((establishAmid line afterwards alone c).run m).2 := by
  have brought := brings_establish alone blind (ha.mono (Set.subset_univ _)) session m
    vacant
  have held (settled : Settled s.1.sessions.length (sight view m)) :=
    held_establish alone blind ha session (view m.2).told m
      ⟨vacant, settled, Nat.le_refl _⟩
  generalize (establishAmid line afterwards alone c).run m = ended at brought held ⊢
  obtain ⟨f | u, s'⟩ := ended
  · exact Undone.connecting brought gates
  · refine ⟨fun f' h => ?_, fun x f' h hf => ?_, fun _ => ⟨c, m, marks, session, hmodel, brought.1,
      brought.2.1, fun settled later steps => ?_⟩, brought.2.2⟩
    · cases gates.symm.trans h
    · cases hf
    · exact (Held.steps (held settled) steps).connected

end

theorem connecting (blind : line.Blind view) (hh : handler.Flows view)
    (hm : Flows view Set.univ meanwhile) {afterwards : Client ω Unit} (thread : Thread)
    (model : CallbackModel) (localLine overrides : Option String) (a : Ambassador) (w : ω)
    (kept : Kept (a, view w)) (ha : Flows view {a.sessions.length} afterwards) :
    Connecting view alone line
      (upToMark line handler meanwhile alone thread model localLine overrides) thread model
      localLine overrides (a, w)
      ((connectAmid line handler meanwhile alone afterwards thread model localLine
        overrides).run.run (a, w)).1
      ((connectAmid line handler meanwhile alone afterwards thread model localLine
        overrides).run.run (a, w)).2 := by
  have fails {f : Fault} {m : Ambassador × ω} (h : (upToMark line handler meanwhile alone thread
      model localLine overrides).run.run (a, w) = (.error f, m)) :
      (connectAmid line handler meanwhile alone afterwards thread model localLine
        overrides).run.run (a, w) = (.error f, m) := run_attempt_error h
  cases gates : a.standing.accept (.known .connect) (a.inCallback thread) with
  | error f =>
    rw [fails (run_attempt_error (run_passTwice_error gates))]
    refine ⟨fun f' h => ?_, fun x _ h => ?_, nofun, kept⟩
    · cases gates.symm.trans h
      exact ⟨rfl, rfl⟩
    · cases gates.symm.trans h
  | ok x =>
    have unconnected := unconnected_of_accept gates
    cases hs : connectionSettings line.words a.settings localLine overrides with
    | error f =>
      rw [fails (run_upToMark_error model gates hs)]
      refine ⟨fun f' h => ?_, fun x f' _ h => ?_, nofun, kept⟩
      · cases gates.symm.trans h
      · cases h
        exact ⟨unconnected, fun i hi => .inl (Aside.sealed_of_length_le hi),
          fun i later packet w closed waned => run_put_of_closed closed waned packet w,
          .inr ⟨hs, rfl⟩, accept_of_unconnected unconnected⟩
    | ok settings =>
      have begun : (upToMark line handler meanwhile alone thread model localLine overrides).run.run
          (a, w) = _ := run_upToMark model gates hs
      have prepared : Ends _ _ ((prepareAmid line handler meanwhile alone settings model
          localLine).run.run (a, w)).1 ((prepareAmid line handler meanwhile alone settings model
          localLine).run.run (a, w)).2 :=
        brings_prepare alone blind hm hh settings model localLine (a, w)
          ⟨unconnected, rfl, kept⟩
      rw [← begun] at prepared
      cases marks : (upToMark line handler meanwhile alone thread model localLine
          overrides).run.run (a, w) with
      | mk result m =>
        rw [marks] at prepared
        cases result with
        | error f =>
          rw [fails marks]
          exact Undone.connecting prepared gates
        | ok c =>
          obtain ⟨rfl, vacant⟩ := prepared
          have run : (connectAmid line handler meanwhile alone afterwards thread model localLine
              overrides).run.run (a, w) = (establishAmid line afterwards alone
                { session := a.sessions.length, model, settings }).run m := run_attempt_ok marks
          rw [run]
          exact connecting_from_mark (s := (a, w)) blind ha marks rfl rfl vacant gates

variable (line) (handler) (meanwhile) (alone)

/-- A coordinator that accepts whoever asks, and has this to say behind its answer. -/
def welcomingLine (more : List Arrival) : Line (Nat × Aside) where
  connect _ w := (.ok (), 0, w.2)
  start w := (.ok (), w)
  send _ w := (.ok (match w.1 with
    | 0 => [.packet (Packet.encode (.newSessionStatus .ok) 1 77 0)]
    | 1 => .packet (Packet.encode (.callResponse 2 (.result [])) 2 77 0) :: more
    | _ => []), w.1 + 1, w.2)
  spawn w := (.ok (), w)
  words _ := .error "no words are known"
  phrase _ := ""
  stamina := 2
  patience := 2

/-- A federate that does nothing about its callbacks. -/
def idleHandler : Handler (Nat × Aside) := fun _ _ _ => pure .returned

/-- The first loss that has begun goes on by some steps. -/
def carryOn : Nat → Client (Nat × Aside) Unit
  | 0 => pure ()
  | n + 1 => do
    let (a, w) ← get
    if let some (i, l) := w.2.losses.head? then
      let (l, a) := a.onPresence i l.step
      set (a, w.1, { w.2 with losses := (i, l) :: w.2.losses.tail })
    carryOn n

/-- A loss strikes the first session as soon as the coordinator has accepted it, and does not go
on. -/
def strikeOnce : Client (Nat × Aside) Unit := do
  let (a, w) ← get
  if (a.session 0).id = 77 && w.2.losses.isEmpty then
    set (a, w.1, { w.2 with losses := [(0, .fresh "cut")] })
    carryOn 1

/-- A session that is lost while the federate connects may have its link closed only afterwards. -/
theorem unclosed_when_struck : ∃ f a w, (connectAmid (welcomingLine []) idleHandler strikeOnce
      (fun _ _ => false) (pure ()) .application .evoked none none).run.run
        (.fresh .standard, 0, .idle) = (.error f, a, w) ∧
    (a.session 0).lost = true ∧ (a.session 0).linkClosed = false := by
  have struck : (match (connectAmid (welcomingLine []) idleHandler strikeOnce (fun _ _ => false)
        (pure ()) .application .evoked none none).run.run (.fresh .standard, 0, .idle) with
      | (.ok (), _) => false
      | (.error _, a, _) => (a.session 0).lost && !(a.session 0).linkClosed) = true := by
    decide +kernel
  generalize (connectAmid _ _ _ _ _ _ _ _ _).run.run _ = s at struck ⊢
  obtain ⟨f | u, a, w⟩ := s
  · simp only [Bool.and_eq_true, Bool.not_eq_true'] at struck
    exact ⟨f, a, w, rfl, struck⟩
  · cases struck

/-- The federate connects, and a loss of its session strikes it. The federate disconnects, and
connects again; only then does the loss go on. -/
def reconnect : Attempt (Nat × Aside) Unit := do
  connectAmid (welcomingLine []) idleHandler (pure ()) (fun _ _ => false) (pure ()) .application
    .evoked none none
  sure (onWorld fun w => ((), w.1, { w.2 with losses := [(0, .fresh "cut")] }))
  sure (carryOn 2)
  disconnectAmid (welcomingLine []) idleHandler (pure ()) (fun _ _ => false) .application
  connectAmid (welcomingLine []) idleHandler (pure ()) (fun _ _ => false) (carryOn 6) .application
    .evoked none none

/-- The loss of an earlier session has the federate count as one that is not connected, which it is:
that the earlier sessions are settled at the mark is needed. -/
theorem disconnected_by_late_loss : ∃ a w, reconnect.run.run (.fresh .standard, 0, .idle) =
      (.ok (), a, w) ∧
    a.connection.isSome = true ∧ (a.session 1).lost = false ∧ a.standing.connected = false ∧
    w.2.told = 0 := by
  have late : (match reconnect.run.run (.fresh .standard, 0, .idle) with
      | (.ok (), a, w) => a.connection.isSome && !(a.session 1).lost && !a.standing.connected &&
        w.2.told == 0
      | (.error _, _) => false) = true := by decide +kernel
  generalize reconnect.run.run _ = s at late ⊢
  obtain ⟨f | u, a, w⟩ := s
  · cases late
  · simp only [Bool.and_eq_true, Bool.not_eq_true', beq_iff_eq] at late
    exact ⟨a, w, rfl, late.1.1.1, late.1.1.2, late.1.2, late.2⟩

end Client

end Federate
