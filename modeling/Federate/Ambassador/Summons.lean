/-
Summonses: evoking callbacks, step by step, up to the first delivery. Whoever
evokes looks for the connection, and waits while its place is held; only then is
it asked whether the thread is in a handler, from where nothing may be evoked.
Between two steps other threads may have theirs.
-/
import Federate.Ambassador
namespace Federate

/-- How far a summons has come. -/
inductive Summons.Stage where
  /-- Before the connection has been seen. -/
  | seeking
  /-- Before the thread asks whether it is in a handler. -/
  | checking (found : Option Connection)
  | refused (f : Fault)
  /-- There is no connection, or its callbacks are delivered as they arrive. -/
  | idle
  /-- Callbacks of the session may be delivered. -/
  | granted (session : Nat)

/-- A summons for callbacks, by a thread. -/
structure Summons where
  /-- What the federate has asked for. -/
  name : String
  thread : Thread
  stage : Summons.Stage

namespace Summons

/-- A summons that has done nothing yet. -/
def fresh (name : String) (thread : Thread) : Summons := { name, thread, stage := .seeking }

def goTo (s : Summons) (stage : Stage) : Summons := { s with stage }

/-- The fault of whoever evokes callbacks from within a handler. -/
def fault (name : String) : Fault :=
  .known .callNotAllowedFromWithinCallback (name ++ " called from a callback handler")

/-- What a thread outside of any handler may evoke. -/
def grant : Option Connection → Stage
  | none => .idle
  | some c => if c.model = .immediate then .idle else .granted c.session

/-- The next step of a summons. It does not move while the place of the connection is held, or when
it is over. -/
def step (s : Summons) (a : Ambassador) : Summons :=
  match s.stage with
  | .seeking =>
    match a.look with
    | none => s
    | some found => s.goTo (.checking found)
  | .checking found =>
    if a.inCallback s.thread then
      s.goTo (.refused (fault (if found.isSome then s.name else "evoke")))
    else s.goTo (grant found)
  | .refused _ | .idle | .granted _ => s

end Summons

end Federate
