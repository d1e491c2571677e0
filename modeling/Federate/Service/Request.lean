/-
Requests: an operation of the interface with the values of its arguments, or
another operation with a payload made elsewhere; and the replies that a
federate gets when the answer has come.
-/
import Federate.Packet.Message
import Federate.Payload.Shape
import Federate.Service.Operation
namespace Federate

namespace Service

/-- The arguments of an operation in the order of its payload. -/
@[reducible] def arguments : Service → Layout
  | .connect => [("model", .text), ("settings", .text)]
  | .disconnect => []
  | .joinFederationExecution =>
    [("federate_name", .maybeText), ("federate_type", .text), ("federation", .text),
     ("modules", .list .text)]
  | .resignFederationExecution => [("action", .resignAction)]
  | .registerFederationSynchronizationPoint =>
    [("label", .text), ("tag", .blob), ("set", .maybe (.handles .federate))]
  | .synchronizationPointAchieved => [("label", .text), ("successfully", .flag)]
  | .requestFederationSave => [("label", .text), ("time", .maybe .time)]
  | .federateSaveBegun | .federateSaveComplete | .federateSaveNotComplete
  | .abortFederationSave | .queryFederationSaveStatus => []
  | .requestFederationRestore => [("label", .text)]
  | .federateRestoreComplete | .federateRestoreNotComplete | .abortFederationRestore
  | .queryFederationRestoreStatus => []
  | .publishObjectClassAttributes | .subscribeObjectClassAttributes =>
    [("class", .handle .objectClass), ("attributes", .handles .attribute)]
  | .unpublishObjectClass | .unsubscribeObjectClass => [("class", .handle .objectClass)]
  | .publishInteractionClass | .unpublishInteractionClass | .subscribeInteractionClass
  | .unsubscribeInteractionClass => [("class", .handle .interactionClass)]
  | .registerObjectInstance => [("class", .handle .objectClass), ("object_name", .maybeText)]
  | .updateAttributeValues =>
    [("object", .handle .objectInstance), ("values", .values .attribute), ("tag", .blob),
     ("time", .maybe .time)]
  | .sendInteraction =>
    [("class", .handle .interactionClass), ("parameters", .values .parameter), ("tag", .blob),
     ("time", .maybe .time)]
  | .deleteObjectInstance =>
    [("object", .handle .objectInstance), ("tag", .blob), ("time", .maybe .time)]
  | .reserveObjectInstanceName => [("object_name", .text)]
  | .requestAttributeValueUpdate | .attributeOwnershipAcquisition =>
    [("object", .handle .objectInstance), ("attributes", .handles .attribute), ("tag", .blob)]
  | .getObjectClassHandle | .getInteractionClassHandle => [("text", .text)]
  | .getAttributeHandle => [("class", .handle .objectClass), ("text", .text)]
  | .getParameterHandle => [("class", .handle .interactionClass), ("text", .text)]
  | .enableTimeRegulation => [("lookahead", .interval)]
  | .disableTimeRegulation | .enableTimeConstrained | .disableTimeConstrained => []
  | .timeAdvanceRequest | .timeAdvanceRequestAvailable | .nextMessageRequest
  | .nextMessageRequestAvailable | .flushQueueRequest => [("time", .time)]
  | .queryLogicalTime | .queryGalt | .queryLookahead => []
  | .unconditionalAttributeOwnershipDivestiture =>
    [("object", .handle .objectInstance), ("attributes", .handles .attribute)]
  | .queryAttributeOwnership =>
    [("object", .handle .objectInstance), ("attribute", .handle .attribute)]

/-- What the payload of an answer holds. -/
inductive Answer where
  /-- Nothing that the federate looks at. -/
  | ignored
  | handle (kind : Handle.Kind)
  /-- A handle by which a message can be taken back, or nothing. -/
  | retraction
  | time
  | maybeTime
  | interval
  /-- The federate's handle and the family of times of the federation. -/
  | membership
  deriving DecidableEq, Repr

/-- What the answer to an operation holds. -/
def answer : Service → Answer
  | .joinFederationExecution => .membership
  | .registerObjectInstance => .handle .objectInstance
  | .updateAttributeValues | .sendInteraction | .deleteObjectInstance => .retraction
  | .getObjectClassHandle => .handle .objectClass
  | .getAttributeHandle => .handle .attribute
  | .getInteractionClassHandle => .handle .interactionClass
  | .getParameterHandle => .handle .parameter
  | .queryLogicalTime => .time
  | .queryGalt => .maybeTime
  | .queryLookahead => .interval
  | _ => .ignored

/-- Updates may be sent without waiting for their answer. -/
def isUpdate : Service → Bool
  | .updateAttributeValues | .sendInteraction => true
  | _ => false

end Service

/-- What a federate asks for. -/
inductive Request where
  | service (s : Service) (arguments : s.arguments.Record)
  /-- An operation outside the interface. -/
  | other (tag : UInt16) (payload : Bytes) (scope : Operation.Scope)

namespace Request

def operation : Request → Operation
  | .service s _ => .known s
  | .other tag _ scope => .other tag scope

def payload : Request → Bytes
  | .service s r => s.arguments.write r
  | .other _ payload _ => payload

def envelope (r : Request) : Envelope := ⟨r.operation.tag, r.payload⟩

/-- The checks on the request itself: its times are of the settled family, and an operation of
the interface is asked for as one. -/
def check (settled : Option TimeFamily) : Request → Except Fault Unit
  | .service s r =>
    match settled with
    | some f => s.arguments.expect f r
    | none => .ok ()
  | .other tag _ _ =>
    match Service.ofCode? tag with
    | some s => .error (.unsupported (s.name ++ " has a typed entry point"))
    | none => .ok ()

end Request

/-- What a federate gets for a request. -/
inductive Reply where
  | done
  | handle (kind : Handle.Kind) (h : Handle kind)
  | retraction (h : Option (Handle .messageRetraction))
  | time (t : Option Time)
  | interval (i : Interval)
  | payload (bs : Bytes)
  deriving DecidableEq

/-- The time family settled on joining. -/
def TimeFamily.settled : Option TimeFamily → Except Fault TimeFamily
  | some f => .ok f
  | none => .error (.known .federateNotExecutionMember "no time factory yet")

/-- The handle and the time family in the answer to a join. -/
def Service.readMembership : Reader (Handle .federate × TimeFamily) := do
  let h ← Handle.read .federate
  let f ← Shape.read none .family
  pure (h, f)

namespace Service.Answer

/-- Reads the payload of an answer; times need the settled family, and an empty payload says
that there is no retraction handle. -/
def read (settled : Option TimeFamily) (payload : Bytes) : Answer → Except Fault Reply
  | .ignored => .ok .done
  | .handle k => do return .handle k (← (Handle.read k).whole payload)
  | .retraction =>
    if payload.isEmpty then .ok (.retraction none)
    else do
      let h ← (Shape.readMaybe (Handle.read .messageRetraction)).whole payload
      return .retraction h
  | .time => do
    let f ← TimeFamily.settled settled
    return .time (some (← f.readTime.whole payload))
  | .maybeTime => do
    let f ← TimeFamily.settled settled
    return .time (← (Shape.readMaybe f.readTime).whole payload)
  | .interval => do
    let f ← TimeFamily.settled settled
    return .interval (← f.readInterval.whole payload)
  | .membership => do
    let m ← readMembership.whole payload
    return .handle .federate m.1

end Service.Answer

end Federate
