/-
What may be asked of a coordinator, and the gates that each request passes
before it is sent: membership in a federation, the ban on requests from within
a callback, and the closed times of a save or a restore.
-/
import Federate.Service
namespace Federate

/-- How far an operation outside the interface reaches: the connection, or the federation. -/
inductive Operation.Scope where
  | connection
  | federation
  deriving DecidableEq, Repr

/-- An operation: one of the interface, or another by its number. -/
inductive Operation where
  | known (service : Service)
  | other (tag : UInt16) (scope : Operation.Scope)
  deriving DecidableEq, Repr

/-- The gates on an operation's way out. -/
structure Operation.Rules where
  needsJoin : Bool
  forbiddenInCallback : Bool
  blockedBySave : Bool
  blockedByRestore : Bool
  deriving DecidableEq, Repr

namespace Operation

/-- Allowed at any time. -/
def Rules.ofConnection : Rules := ⟨false, false, false, false⟩

/-- Allowed to members, outside saves and restores. -/
def Rules.ofFederation : Rules := ⟨true, false, true, true⟩

/-- Allowed to members at any time. -/
def Rules.ofSupport : Rules := ⟨true, false, false, false⟩

/-- The number of an operation on the wire. -/
def tag : Operation → UInt16
  | .known s => s.code
  | .other n _ => n

/-- The operation in words. -/
def text : Operation → String
  | .known s => s.name
  | .other n _ => s!"operation#{n}"

/-- The gates of each operation. The steps of a save pass the save, those of a restore the
restore, and questions about handles and times pass both. -/
def rules : Operation → Rules
  | .other _ .connection => .ofConnection
  | .other _ .federation => .ofFederation
  | .known s =>
    match s with
    | .connect | .disconnect | .joinFederationExecution =>
      { Rules.ofConnection with forbiddenInCallback := true }
    | .resignFederationExecution => { Rules.ofSupport with forbiddenInCallback := true }
    | .federateSaveBegun | .federateSaveComplete | .federateSaveNotComplete
    | .abortFederationSave | .queryFederationSaveStatus =>
      { Rules.ofFederation with blockedBySave := false }
    | .federateRestoreComplete | .federateRestoreNotComplete | .abortFederationRestore
    | .queryFederationRestoreStatus => { Rules.ofFederation with blockedByRestore := false }
    | .getObjectClassHandle | .getAttributeHandle | .getInteractionClassHandle
    | .getParameterHandle | .queryLogicalTime | .queryGalt | .queryLookahead => .ofSupport
    | _ => .ofFederation

end Operation

end Federate
