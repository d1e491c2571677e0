/-
Tallies: what has passed over a session. A tally knows the numbers themselves;
the counters that show them have 64 bits and begin anew after the largest.
-/
namespace Federate

/-- Counts of what has passed over a session. -/
structure Tally where
  /-- Calls whose sender waits for the answer. -/
  callsSent : Nat
  responsesReceived : Nat
  /-- Answers that reported a fault. -/
  faultsReceived : Nat
  /-- Calls that nobody waits for. -/
  castsSent : Nat
  callbacksReceived : Nat
  /-- Handlers that returned without a fault. -/
  callbacksDispatched : Nat
  /-- Callbacks that could not be decoded, or whose handler failed. -/
  callbacksFailed : Nat
  deriving DecidableEq, Repr

namespace Tally

/-- Nothing has passed yet. -/
def zero : Tally := ⟨0, 0, 0, 0, 0, 0, 0⟩

def countCall (t : Tally) : Tally := { t with callsSent := t.callsSent + 1 }
def countCast (t : Tally) : Tally := { t with castsSent := t.castsSent + 1 }
def countCallback (t : Tally) : Tally := { t with callbacksReceived := t.callbacksReceived + 1 }
def countDispatched (t : Tally) : Tally :=
  { t with callbacksDispatched := t.callbacksDispatched + 1 }
def countFailed (t : Tally) : Tally := { t with callbacksFailed := t.callbacksFailed + 1 }

/-- One more answer, which may be a fault. -/
def countResponse (isFault : Bool) (t : Tally) : Tally :=
  { t with
    responsesReceived := t.responsesReceived + 1
    faultsReceived := t.faultsReceived + isFault.toNat }

/-- The counters in the order of a report. -/
def counts (t : Tally) : List UInt64 :=
  [t.callsSent, t.responsesReceived, t.faultsReceived, t.castsSent, t.callbacksReceived,
   t.callbacksDispatched, t.callbacksFailed].map .ofNat

end Tally

end Federate
