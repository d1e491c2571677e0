/-
Answers, step by step. Taking in the answer to a call is made of steps that
each run without interruption: the answer is counted, it takes the entry of its
call out of the table, it may note a join, and it wakes the caller. Others may
have their steps in between. Left alone, it comes to what `Presence.resolve`
says (`advance_resolve`).
-/
import Federate.Session.Presence
namespace Federate

/-- How far an answer has come. -/
inductive Receipt.Stage where
  | counting
  | claiming
  /-- The entry of the call is out of the table, and its caller has not been woken. -/
  | noting (ticket : Nat) (tag : UInt16)
  | waking (ticket : Nat)
  | ended

/-- An answer that came under the number of a call. -/
structure Receipt where
  number : UInt32
  outcome : CallOutcome
  stage : Receipt.Stage

namespace Receipt

/-- An answer that has only been stamped. -/
def fresh (number : UInt32) (outcome : CallOutcome) : Receipt :=
  { number, outcome, stage := .counting }

def goTo (a : Receipt) (stage : Stage) : Receipt := { a with stage }

/-- Where an answer stands once it has taken an entry, or found none. -/
def found : Option Session.Pending → Stage
  | some (.blocking ticket tag) => .noting ticket tag
  | some (.detached _) | none => .ended

/-- The next step of an answer. -/
def step (a : Receipt) (p : Presence) : Receipt × Presence :=
  match a.stage with
  | .counting =>
    (a.goTo .claiming, p.onSession (·.count (.countResponse (Presence.isFault a.outcome))))
  | .claiming =>
    let (entry, session) := p.session.claim a.number
    (a.goTo (found entry), { p with session })
  | .noting ticket tag => (a.goTo (.waking ticket), p.noteOutcome tag a.outcome)
  | .waking ticket => (a.goTo .ended, p.onSession (·.wake ticket (.ok a.outcome)))
  | .ended => (a, p)

/-- An answer and a presence after some steps of the answer alone. -/
def advance : Nat → Receipt × Presence → Receipt × Presence
  | 0, x => x
  | n + 1, x => advance n (x.1.step x.2)

/-- An answer that is left alone does what taking it in does. -/
theorem advance_resolve (number : UInt32) (outcome : CallOutcome) (p : Presence) :
    advance 4 (fresh number outcome, p) =
      ((fresh number outcome).goTo .ended, p.resolve number outcome) := by
  simp only [advance, fresh, step, goTo, Presence.resolve]
  cases h : (p.onSession (·.count (.countResponse (Presence.isFault outcome)))).session.claim number
    with
  | mk entry session =>
    cases entry with
    | none => rfl
    | some e => cases e <;> rfl

end Receipt

end Federate
