/-
Losses, step by step. Losing a session is made of steps that each run without
interruption: the session is struck, the table of calls is emptied, the callers
that were in it are woken one after another, the handshake and the wait for the
end are settled, the link is closed, and unless the federate itself was ending
the session, its standing falls back and it gets one notice. A loss that finds
the session struck does nothing. Left alone, a loss comes to what
`Presence.lose` says (`advance_lose`).
-/
import Federate.Session.Presence
namespace Federate

/-- How far a loss has come. -/
inductive Loss.Stage where
  | striking
  /-- Another loss came first. -/
  | late
  | looking
  | draining
  /-- The table has been emptied, and these callers have not been woken. -/
  | waking (rest : List Session.Pending)
  | shaking
  | noting
  | shutting
  | falling
  | telling
  | ended

/-- A loss. -/
structure Loss where
  reason : String
  /-- Was the federate itself ending the session, when the loss looked? -/
  closing : Bool
  stage : Loss.Stage

namespace Loss

/-- A loss that has not struck. -/
def fresh (reason : String) : Loss := { reason, closing := false, stage := .striking }

def goTo (l : Loss) (stage : Stage) : Loss := { l with stage }

/-- What the callers are woken with. -/
def wakening (l : Loss) : Session.Wakening := .error (.known .notConnected l.reason)

/-- The next step of a loss. -/
def step (l : Loss) (p : Presence) : Loss × Presence :=
  match l.stage with
  | .striking =>
    if p.session.lost then (l.goTo .late, p) else (l.goTo .looking, p.onSession (·.strike))
  | .late => (l, p)
  | .looking => ({ l.goTo .draining with closing := p.session.closing }, p)
  | .draining => (l.goTo (.waking p.session.drain.1), p.onSession (·.drain.2))
  | .waking (entry :: rest) =>
    (l.goTo (.waking rest), p.onSession (·.wakePending entry l.wakening))
  | .waking [] => (l.goTo .shaking, p)
  | .shaking =>
    (l.goTo .noting, p.onSession (·.shake (.error (.known .connectionFailed l.reason))))
  | .noting => (l.goTo .shutting, p.onSession (·.noteTerminated))
  | .shutting => (l.goTo (if l.closing then .ended else .falling), p.onSession (·.closeLink))
  | .falling => (l.goTo .telling, { p with standing := .idle })
  | .telling => (l.goTo .ended, p.onSession (·.onQueue (·.push (.lost l.reason))))
  | .ended => (l, p)

/-- A loss and a presence after some steps of the loss alone. -/
def advance : Nat → Loss × Presence → Loss × Presence
  | 0, x => x
  | n + 1, x => advance n (x.1.step x.2)

/-- The callers that were in the table are woken one after another. -/
theorem advance_waking (rest : List Session.Pending) (n : Nat) (l : Loss) (p : Presence) :
    advance (rest.length + n) (l.goTo (.waking rest), p) =
      advance n (l.goTo (.waking []),
        p.onSession fun s => rest.foldl (fun s e => s.wakePending e l.wakening) s) := by
  induction rest generalizing p with
  | nil => simp [Presence.onSession]
  | cons e rest ih =>
    rw [List.length_cons, Nat.succ_add, advance]
    exact ih _

theorem advance_late (n : Nat) (l : Loss) (p : Presence) :
    advance n (l.goTo .late, p) = (l.goTo .late, p) := by
  induction n with
  | zero => rfl
  | succ n ih => exact ih

/-- A loss that is left alone does what losing the session does. -/
theorem advance_lose (reason : String) (p : Presence) :
    ∃ l, (l.stage = .late ∨ l.stage = .ended) ∧
      advance (p.session.pending.length + 9) (fresh reason, p) = (l, p.lose reason) := by
  cases hlost : p.session.lost with
  | true =>
    refine ⟨(fresh reason).goTo .late, .inl rfl, ?_⟩
    rw [Presence.lose, if_pos hlost, advance]
    simp only [step, fresh, hlost, if_true]
    exact advance_late _ _ _
  | false =>
    have hwake : advance (p.session.pending.length + 9) (fresh reason, p) =
        advance 6 (Loss.mk reason p.session.closing (.waking []),
          p.onSession fun s => Presence.wakeAll s.strike reason) := by
      rw [advance, advance, advance]
      simp only [step, fresh, hlost, goTo, Bool.false_eq_true, if_false]
      have hlen : p.session.drain.1.length = p.session.pending.length := List.length_map _
      rw [← hlen]
      exact advance_waking _ 6 ⟨reason, p.session.closing, .striking⟩ _
    refine ⟨⟨reason, p.session.closing, .ended⟩, .inr rfl, ?_⟩
    rw [hwake, Presence.lose, if_neg (by simp [hlost])]
    cases hclosing : p.session.closing <;> rfl

end Loss

end Federate
