/-
Holding callbacks back, step by step. A hold disables the queue of a session,
looks whether its own thread is in a handler, and if it is not, waits until no
item of the queue is out for delivery. Between two steps other threads may have
theirs.
-/
import Federate.Ambassador
namespace Federate

/-- How far a hold has come. -/
inductive Hold.Stage where
  | closing
  /-- Before the thread asks whether it is in a handler. -/
  | looking
  | waiting
  /-- The hold has waited, and found no item out. -/
  | quiet
  /-- The thread is in a handler, and the hold has not waited. -/
  | within
  deriving DecidableEq, Repr

/-- A hold on the callbacks of a session, by a thread. -/
structure Hold where
  session : Nat
  thread : Thread
  stage : Hold.Stage
  deriving DecidableEq, Repr

namespace Hold

/-- A hold that has done nothing yet. -/
def fresh (session : Nat) (thread : Thread) : Hold := { session, thread, stage := .closing }

def goTo (h : Hold) (stage : Stage) : Hold := { h with stage }

/-- The next step of a hold. It does not move while it waits in vain, or when it is over. -/
def step (h : Hold) (a : Ambassador) : Hold × Ambassador :=
  match h.stage with
  | .closing => (h.goTo .looking, a.alterSession h.session (·.onQueue (·.setEnabled false)))
  | .looking => (h.goTo (if a.inCallback h.thread then .within else .waiting), a)
  | .waiting => if (a.session h.session).queue.inProgress then (h, a) else (h.goTo .quiet, a)
  | .quiet | .within => (h, a)

end Hold

end Federate
