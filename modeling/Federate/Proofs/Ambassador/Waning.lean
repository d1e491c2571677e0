/-
What goes on beside a change of the connection. Sessions are lost, their links
are closed and let go of, packets come in and go out, callbacks are delivered;
none of it takes a loss back, opens a link again, puts a connection into use or
makes the federate count as connected: the ambassador wanes. Most of it does
even less: it loses no session without closing its link, and has the federate
count as connected as before. Then the ambassador ebbs.
-/
import Federate.Client.Connection
import Federate.Proofs.Session.Teardown
namespace Federate

/-! ## Sessions -/

/-- What has been lost, closed or let go of stays so, and so does a session that the federate is
ending. -/
structure Session.Wanes (s s' : Session) : Prop where
  lost : s.lost = true → s'.lost = true
  closing : s.closing = true → s'.closing = true
  closed : s.linkClosed = true → s'.linkClosed = true
  dropped : s.dropped = true → s'.dropped = true

/-- The session wanes, and is not lost without its link being closed. -/
structure Session.Ebbs (s s' : Session) : Prop extends s.Wanes s' where
  shut : s'.lost = true → s.lost = true ∨ s'.linkClosed = true

namespace Session

variable {s s' s'' : Session}

theorem Wanes.refl (s : Session) : s.Wanes s :=
  ⟨fun h => h, fun h => h, fun h => h, fun h => h⟩

theorem Wanes.trans (h : s.Wanes s') (h' : s'.Wanes s'') : s.Wanes s'' :=
  ⟨h'.lost ∘ h.lost, h'.closing ∘ h.closing, h'.closed ∘ h.closed, h'.dropped ∘ h.dropped⟩

theorem Ebbs.same (lost : s'.lost = s.lost) (closing : s'.closing = s.closing)
    (closed : s'.linkClosed = s.linkClosed) (dropped : s'.dropped = s.dropped) : s.Ebbs s' :=
  ⟨⟨lost.trans, closing.trans, closed.trans, dropped.trans⟩, fun h => .inl (lost.symm.trans h)⟩

theorem Ebbs.refl (s : Session) : s.Ebbs s := .same rfl rfl rfl rfl

theorem Ebbs.trans (h : s.Ebbs s') (h' : s'.Ebbs s'') : s.Ebbs s'' :=
  ⟨h.toWanes.trans h'.toWanes, fun lost =>
    (h'.shut lost).elim (fun lost => (h.shut lost).imp_right h'.closed) .inr⟩

theorem ebbs_wakePending (s : Session) (p : Pending) (w : Wakening) :
    s.Ebbs (s.wakePending p w) := by
  cases p <;> exact .same rfl rfl rfl rfl

theorem ebbs_drop (s : Session) : s.Ebbs s.drop :=
  ⟨⟨fun h => h, fun _ => rfl, fun _ => rfl, fun _ => rfl⟩, .inl⟩

end Session

namespace Call

theorem ebbs_step (c : Call) (s : Session) : s.Ebbs (c.step s).2 := by
  unfold step
  split
  case h_1 | h_3 => split <;> exact .same rfl rfl rfl rfl
  case h_6 => split <;> exact .same rfl rfl rfl rfl
  case h_7 =>
    split
    · exact .refl s
    · next ticket _ =>
      have collected : s.Ebbs (s.collect ticket).2 := .same rfl rfl rfl rfl
      split
      · next h => rw [h] at collected; exact collected
      · next h => rw [h] at collected; exact collected
  all_goals exact .same rfl rfl rfl rfl

theorem ebbs_heard (c : Call) (verdict : Except LinkFault Unit) (s : Session) :
    s.Ebbs (c.heard verdict s).2 := by
  unfold heard
  split <;> exact .same rfl rfl rfl rfl

theorem ebbs_expire (c : Call) (s : Session) : s.Ebbs (c.expire s).2 := by
  unfold expire
  split
  · split <;> exact .refl s
  · exact .refl s

end Call

/-! ## With the standing -/

/-- The session ebbs, and the federate counts as connected as before. -/
structure Presence.Ebbs (p p' : Presence) : Prop where
  session : p.session.Ebbs p'.session
  connected : p'.standing.connected = p.standing.connected

namespace Presence

theorem Ebbs.refl (p : Presence) : p.Ebbs p := ⟨.refl _, rfl⟩

theorem Ebbs.trans {p p' p'' : Presence} (h : p.Ebbs p') (h' : p'.Ebbs p'') : p.Ebbs p'' :=
  ⟨h.session.trans h'.session, h'.connected.trans h.connected⟩

theorem Ebbs.onSession {p p' : Presence} {f : Session → Session} (h : p.Ebbs p')
    (hf : ∀ s : Session, s.Ebbs (f s)) : p.Ebbs (p'.onSession f) :=
  ⟨h.session.trans (hf _), h.connected⟩

theorem ebbs_noteOutcome (p : Presence) (tag : UInt16) (outcome : CallOutcome) :
    p.Ebbs (p.noteOutcome tag outcome) := by
  cases outcome with
  | fault name details => exact .refl p
  | result payload =>
    simp only [noteOutcome, noteJoin]
    split
    · cases Service.readMembership.whole payload <;> exact ⟨.refl _, rfl⟩
    · exact .refl p

theorem ebbs_resolve (p : Presence) (n : UInt32) (outcome : CallOutcome) :
    p.Ebbs (p.resolve n outcome) := by
  unfold resolve
  dsimp only
  split
  · next ticket tag _ =>
    refine Ebbs.onSession ?_ fun _ => .same rfl rfl rfl rfl
    refine Ebbs.trans ?_ (ebbs_noteOutcome _ tag outcome)
    exact ⟨.same rfl rfl rfl rfl, rfl⟩
  · exact ⟨.same rfl rfl rfl rfl, rfl⟩
  · exact ⟨.same rfl rfl rfl rfl, rfl⟩

theorem ebbs_receive (p : Presence) (packet : Packet) (now : Duration) :
    p.Ebbs (p.receive packet now).2 := by
  unfold receive
  cases packet.message with
  | callResponse n outcome =>
    have stamped : p.Ebbs (p.onSession (·.stamp packet.header.sequenceNumber now)) :=
      ⟨.same rfl rfl rfl rfl, rfl⟩
    exact stamped.trans (ebbs_resolve _ n outcome)
  | _ => exact ⟨.same rfl rfl rfl rfl, rfl⟩

theorem wanes_tearDown (s : Session) (reason : String) : s.Wanes (tearDown s reason) := by
  have woken : ∀ (waiting : List Session.Pending) (s : Session), s.Wanes
      (waiting.foldl (fun s p => s.wakePending p (.error (.known .notConnected reason))) s) := by
    intro waiting
    induction waiting with
    | nil => exact fun s => .refl s
    | cons p rest ih => exact fun s => (s.ebbs_wakePending p _).toWanes.trans (ih _)
  have drained : s.Wanes s.drain.2 := ⟨id, id, id, id⟩
  exact (drained.trans (woken _ _)).trans ⟨id, id, fun _ => rfl, id⟩

/-- Losing a session closes its link. The standing falls back, unless the session was lost before or
the federate itself was ending it. -/
theorem ebbs_lose (p : Presence) (reason : String) : p.session.Ebbs (p.lose reason).session ∧
    ((p.lose reason).standing = p.standing ∨ (p.lose reason).standing = .idle ∧
      p.session.lost = false ∧ p.session.closing = false) := by
  have struck : p.session.Ebbs (tearDown p.session.strike reason) := by
    have counted : p.session.Wanes p.session.strike := ⟨fun _ => rfl, id, id, id⟩
    exact ⟨counted.trans (wanes_tearDown _ reason), fun _ => .inr rfl⟩
  unfold lose
  split
  · exact ⟨.refl _, .inl rfl⟩
  · next lost =>
    rw [Bool.not_eq_true] at lost
    dsimp only
    split
    · exact ⟨struck, .inl rfl⟩
    · next closing =>
      rw [Bool.not_eq_true] at closing
      exact ⟨struck.trans (.same rfl rfl rfl rfl), .inr ⟨rfl, lost, closing⟩⟩

end Presence

/-! ## The ambassador -/

/-- Sessions only wane, and nobody puts a connection into use, opens a session or makes the
federate count as connected. -/
structure Ambassador.Wanes (a a' : Ambassador) : Prop where
  connection : a'.connection = a.connection
  length : a'.sessions.length = a.sessions.length
  session : ∀ i, (a.session i).Wanes (a'.session i)
  connected : a'.standing.connected = true → a.standing.connected = true

/-- Sessions only ebb, nobody changes the connection, and the federate counts as connected as
before. -/
structure Ambassador.Ebbs (a a' : Ambassador) : Prop where
  connection : a'.connection = a.connection
  length : a'.sessions.length = a.sessions.length
  session : ∀ i, (a.session i).Ebbs (a'.session i)
  connected : a'.standing.connected = a.standing.connected

namespace Ambassador

variable {α : Type} {a a' a'' : Ambassador}

theorem Ebbs.wanes (h : a.Ebbs a') : a.Wanes a' :=
  ⟨h.connection, h.length, fun i => (h.session i).toWanes, h.connected.symm.trans⟩

theorem Wanes.refl (a : Ambassador) : a.Wanes a := ⟨rfl, rfl, fun _ => .refl _, id⟩

theorem Ebbs.refl (a : Ambassador) : a.Ebbs a := ⟨rfl, rfl, fun _ => .refl _, rfl⟩

theorem Wanes.trans (h : a.Wanes a') (h' : a'.Wanes a'') : a.Wanes a'' :=
  ⟨h'.connection.trans h.connection, h'.length.trans h.length,
    fun i => (h.session i).trans (h'.session i), h.connected ∘ h'.connected⟩

theorem Wanes.unconnected (h : a.Wanes a') (hc : a.standing.connected = false) :
    a'.standing.connected = false :=
  Bool.eq_false_iff.mpr fun connected => Bool.eq_false_iff.mp hc (h.connected connected)

/-- What holds of the session that is changed, and of one that is not, holds of every session. -/
theorem session_alterSession_of {R : Session → Session → Prop} (refl : ∀ s, R s s) (a : Ambassador)
    (i : Nat) {f : Session → Session} (h : ∀ s, R s (f s)) (j : Nat) :
    R (a.session j) ((a.alterSession i f).session j) := by
  simp only [Ambassador.session, alterSession, List.getElem?_modify]
  cases a.sessions[j]? with
  | none => split <;> exact refl _
  | some s =>
    split
    · exact h s
    · exact refl s

theorem session_onPresence_of {R : Session → Session → Prop} (refl : ∀ s, R s s) (a : Ambassador)
    (i : Nat) {f : Presence → α × Presence} (h : R (a.session i) (f (a.presence i)).2.session)
    (j : Nat) : R (a.session j) ((a.onPresence i f).2.session j) := by
  simp only [Ambassador.session, onPresence, List.getElem?_set]
  split
  · next hij =>
    subst hij
    split
    · next hi =>
      rw [Ambassador.session] at h
      exact h
    · next hi => rw [List.getElem?_eq_none (Nat.le_of_not_lt hi)]; exact refl _
  · exact refl _

theorem ebbs_alterSession (a : Ambassador) (i : Nat) {f : Session → Session}
    (h : ∀ s : Session, s.Ebbs (f s)) : a.Ebbs (a.alterSession i f) where
  connection := rfl
  length := a.length_alterSession i f
  session := session_alterSession_of .refl a i h
  connected := rfl

theorem ebbs_onSession (a : Ambassador) (i : Nat) {f : Session → α × Session}
    (h : ∀ s : Session, s.Ebbs (f s).2) : a.Ebbs (a.onSession i f).2 :=
  a.ebbs_alterSession i h

theorem ebbs_onPresence (a : Ambassador) (i : Nat) {f : Presence → α × Presence}
    (h : ∀ p : Presence, p.Ebbs (f p).2) : a.Ebbs (a.onPresence i f).2 where
  connection := rfl
  length := List.length_set
  session := session_onPresence_of .refl a i (h (a.presence i)).session
  connected := (h (a.presence i)).connected

theorem wanes_onPresence (a : Ambassador) (i : Nat) {f : Presence → α × Presence}
    (h : ∀ p : Presence, p.session.Wanes (f p).2.session ∧
      ((f p).2.standing = p.standing ∨ (f p).2.standing = .idle)) :
    a.Wanes (a.onPresence i f).2 where
  connection := rfl
  length := List.length_set
  session := session_onPresence_of .refl a i (h (a.presence i)).1
  connected connected := by
    have connected : (f (a.presence i)).2.standing.connected = true := connected
    rcases (h (a.presence i)).2 with same | idle
    · rw [same] at connected
      exact connected
    · rw [idle] at connected
      cases connected

theorem session_of_length_le {i : Nat} (h : a.sessions.length ≤ i) : a.session i = .gone := by
  rw [session, List.getElem?_eq_none h]
  rfl

theorem lost_lose (i : Nat) (reason : String) (a : Ambassador) :
    ((a.onPresence i fun p => ((), p.lose reason)).2.session i).lost = true := by
  by_cases hi : i < a.sessions.length
  · rw [session_onPresence _ hi]
    exact (a.presence i).lost_lose reason
  · rw [session_of_length_le]
    · rfl
    · simpa [onPresence] using hi

end Ambassador

/-! ## Deliveries -/

theorem Standing.connected_of_observe {s : Standing} {k : Callback.Kind}
    (h : (s.observe k).connected = true) : s.connected = true := by
  cases k <;> first | exact h | cases h

theorem Standing.connected_observe (s : Standing) {k : Callback.Kind}
    (h : k ≠ .connectionLost) : (s.observe k).connected = s.connected := by
  cases k <;> first | rfl | exact absurd rfl h

/-- A step of a delivery makes the ambassador ebb, except that the standing follows a callback. -/
theorem Delivery.ebbs_step (d : Delivery) (a : Ambassador) : a.Ebbs (d.step a).2 ∨
    ∃ n c, d.stage = .observing n c ∧
      (d.step a).2 = { a with standing := a.standing.observe c.kind } := by
  cases hs : d.stage with
  | taking =>
    have taken : a.Ebbs (a.onSession d.session fun s =>
        (s.queue.next.1, s.onQueue (·.next.2))).2 :=
      a.ebbs_onSession _ fun _ => .same rfl rfl rfl rfl
    simp only [step, hs]
    split
    · next h => rw [h] at taken; exact .inl taken
    · next h => rw [h] at taken; exact .inl taken
  | observing n c =>
    simp only [step, hs]
    exact .inr ⟨n, c, rfl, rfl⟩
  | entering n c | leaving n h =>
    simp only [step, hs]
    exact .inl ⟨rfl, rfl, fun _ => .refl _, rfl⟩
  | counting n fault =>
    simp only [step, hs]
    exact .inl (a.ebbs_alterSession _ fun _ => .same rfl rfl rfl rfl)
  | answering n fault =>
    cases n with
    | none => simp only [step, hs]; exact .inl (.refl a)
    | some n =>
      simp only [step, hs]
      split
      · exact .inl (.refl a)
      · exact .inl (a.ebbs_onSession _ fun _ => .same rfl rfl rfl rfl)
  | finishing =>
    simp only [step, hs]
    exact .inl (a.ebbs_alterSession _ fun _ => .same rfl rfl rfl rfl)
  | _ => simp only [step, hs]; exact .inl (.refl a)

/-! ## Losses -/

namespace Loss

/-- The loss has struck, and the link is still to be closed. -/
def Stage.shuts : Stage → Bool
  | .looking | .draining | .waking _ | .shaking | .noting | .shutting => true
  | _ => false

/-- The loss will not make the standing of the federate fall back, or not any more. -/
def Spares (l : Loss) (s : Session) : Prop :=
  match l.stage with
  | .striking => s.lost = true ∨ s.closing = true
  | .looking => s.closing = true
  | .draining | .waking _ | .shaking | .noting | .shutting => l.closing = true
  | .falling => False
  | .late | .telling | .ended => True

theorem Spares.wanes {l : Loss} {s s' : Session} (h : l.Spares s) (waned : s.Wanes s') :
    l.Spares s' := by
  unfold Spares at h ⊢
  split at h
  · exact h.imp waned.lost waned.closing
  · exact waned.closing h
  all_goals exact h

/-- What a step of a loss comes to. -/
structure Wanes (l : Loss) (p : Presence) (l' : Loss) (p' : Presence) : Prop where
  session : p.session.Wanes p'.session
  /-- The standing falls back at the most. -/
  standing : p'.standing = p.standing ∨ p'.standing = .idle ∧ l.stage = .falling
  won : l'.stage.won = true → l.stage.won = true ∨ p'.session.lost = true
  /-- A session that is lost now has its link closed in the end. -/
  shuts : p'.session.lost = true → p.session.lost = true ∨ l'.stage.shuts = true
  shutting : l.stage.shuts = true → l'.stage.shuts = true ∨ p'.session.linkClosed = true
  spares : l.Spares p.session → l'.Spares p'.session

theorem wanes_step (l : Loss) (p : Presence) : l.Wanes p (l.step p).1 (l.step p).2 := by
  cases hs : l.stage with
  | striking =>
    by_cases lost : p.session.lost = true
    · simp only [step, hs, lost, if_true]
      exact ⟨.refl _, .inl rfl, fun _ => .inr lost, .inl, by simp [hs, Stage.shuts],
        fun _ => trivial⟩
    · simp only [step, hs, lost]
      refine ⟨⟨fun _ => rfl, id, id, id⟩, .inl rfl, fun _ => .inr rfl, fun _ => .inr rfl,
        by simp [hs, Stage.shuts], fun spares => ?_⟩
      simp only [Spares, hs] at spares
      exact spares.resolve_left lost
  | late | ended =>
    simp only [step, hs]
    refine ⟨.refl _, .inl rfl, fun won => .inl won, .inl, by simp [hs, Stage.shuts], id⟩
  | looking =>
    simp only [step, hs]
    refine ⟨.refl _, .inl rfl, fun _ => .inl (by rw [hs]; rfl), .inl, fun _ => .inl rfl, ?_⟩
    intro spares
    simp only [Spares, hs] at spares
    exact spares
  | waking rest =>
    cases rest with
    | nil =>
      simp only [step, hs]
      refine ⟨.refl _, .inl rfl, fun _ => .inl (by rw [hs]; rfl), .inl, fun _ => .inl rfl, ?_⟩
      intro spares
      simp only [Spares, hs] at spares
      exact spares
    | cons entry rest =>
      have woken := p.session.ebbs_wakePending entry l.wakening
      simp only [step, hs]
      refine ⟨woken.toWanes, .inl rfl, fun _ => .inl (by rw [hs]; rfl), fun lost => ?_,
        fun _ => .inl rfl, fun spares => ?_⟩
      · cases entry <;> exact .inl lost
      · simp only [Spares, hs] at spares
        exact spares
  | draining | shaking | noting =>
    simp only [step, hs]
    refine ⟨⟨id, id, id, id⟩, .inl rfl, fun _ => .inl (by rw [hs]; rfl), .inl, fun _ => .inl rfl,
      ?_⟩
    intro spares
    simp only [Spares, hs] at spares
    exact spares
  | shutting =>
    simp only [step, hs]
    refine ⟨⟨id, id, fun _ => rfl, id⟩, .inl rfl, fun _ => .inl (by rw [hs]; rfl), .inl,
      fun _ => .inr rfl, fun spares => ?_⟩
    simp only [Spares, hs] at spares
    simp [Spares, goTo, spares]
  | falling =>
    simp only [step, hs]
    refine ⟨.refl _, .inr ⟨rfl, hs⟩, fun _ => .inl (by rw [hs]; rfl), .inl,
      by simp [hs, Stage.shuts], fun _ => trivial⟩
  | telling =>
    simp only [step, hs]
    refine ⟨⟨id, id, id, id⟩, .inl rfl, fun _ => .inl (by rw [hs]; rfl), .inl,
      by simp [hs, Stage.shuts], fun _ => trivial⟩

end Loss

end Federate
